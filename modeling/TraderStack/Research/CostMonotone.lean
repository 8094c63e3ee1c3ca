import TraderStack.Research.Benchmark

/-!
# A backtest at two costs

The same series and the same decisions, at two flat costs. The run at the higher one
makes the same entries and exits, and each bar multiplies its equity by the smaller
factor. So it never has more, and it is always at least as far below its peak, whose
height depends on the costs too.

- `Dearer.bar`: one bar of both runs;
- `noBetter_of_costs`: what the two backtests report.
-/

namespace TraderStack

open Lib

namespace SimulationState

/-- The same arguments at two flat costs, both under 100 %. -/
structure AtCosts (c₁ c₂ : ℚ) (args₁ args₂ : SimulationArgs) : Prop where
  equity : args₂.startingEquity = args₁.startingEquity
  warmup : args₂.warmup = args₁.warmup
  threshold : args₂.rebalanceThreshold = args₁.rebalanceThreshold
  cost₁ : ∀ candle x, args₁.costBps candle x = c₁
  cost₂ : ∀ candle x, args₂.costBps candle x = c₂
  le : c₁ ≤ c₂
  lt : c₂ < 10000

/-- The same position, entered by both at their own notional. -/
structure SameEntry (c₁ c₂ : ℚ) (p q : OpenPosition) : Prop where
  weight : q.weight = p.weight
  price : q.price = p.price
  openedAt : q.openedAt = p.openedAt
  regime : q.regime = p.regime
  strategyIds : q.strategyIds = p.strategyIds
  notional_pos : 0 < p.notional
  notional_pos' : 0 < q.notional
  fees : p.fees = p.notional * (c₁ / 10000)
  fees' : q.fees = q.notional * (c₂ / 10000)

/-- The same trade, but for what it returned, paid and was worth. -/
structure SameTrade (t u : BacktestTrade) : Prop where
  entryTime : u.entryTime = t.entryTime
  exitTime : u.exitTime = t.exitTime
  entryPrice : u.entryPrice = t.entryPrice
  exitPrice : u.exitPrice = t.exitPrice
  side : u.side = t.side
  regime : u.regime = t.regime
  strategyIds : u.strategyIds = t.strategyIds

/-- The second run at the same place as the first, having paid the higher cost. -/
structure Paired (c₁ c₂ : ℚ) (s t : SimulationState) : Prop where
  equity_pos : 0 < t.equity
  equity_le : t.equity ≤ s.equity
  position : Option.Rel (SameEntry c₁ c₂) s.position t.position
  log : List.Forall₂ SameTrade s.tradeLog t.tradeLog
  fills : t.fills = s.fills
  fees : t.totalFees = t.totalTurnover * (c₂ / 10000)
  turnover_nonneg : 0 ≤ t.totalTurnover
  /-- A trade of the first run has been checked for its fees. -/
  checked : s.tradeLog ≠ [] → 0 ≤ c₁
  idle : s.tradeLog = [] → s.position = none → t.totalTurnover = 0

/-- Both equities, moved by a factor each, the second by the smaller; nothing was
observed. -/
structure Scaled (s s' t t' : SimulationState) : Prop where
  factors : ∃ a b, 0 < b ∧ b ≤ a ∧ s'.equity = s.equity * a ∧ t'.equity = t.equity * b
  watermark : s'.watermark = s.watermark
  watermark' : t'.watermark = t.watermark

variable {c₁ c₂ : ℚ} {args₁ args₂ : SimulationArgs} {s s' s'' t t' t'' : SimulationState}

theorem Scaled.refl (s t : SimulationState) : Scaled s s t t :=
  ⟨⟨1, 1, one_pos, le_refl 1, (mul_one _).symm, (mul_one _).symm⟩, rfl, rfl⟩

theorem Scaled.trans (h : Scaled s s' t t') (h' : Scaled s' s'' t' t'') : Scaled s s'' t t'' := by
  obtain ⟨a, b, hb, hab, hs, ht⟩ := h.factors
  obtain ⟨a', b', hb', hab', hs', ht'⟩ := h'.factors
  refine ⟨⟨a * a', b * b', mul_pos hb hb', ?_, ?_, ?_⟩, h'.watermark.trans h.watermark,
    h'.watermark'.trans h.watermark'⟩
  · exact mul_le_mul hab hab' hb'.le (hb.le.trans hab)
  · rw [hs', hs, mul_assoc]
  · rw [ht', ht, mul_assoc]

theorem Scaled.equity_le (h : Scaled s s' t t') (hpos : 0 < t.equity) (hle : t.equity ≤ s.equity) :
    0 < t'.equity ∧ t'.equity ≤ s'.equity := by
  obtain ⟨a, b, hb, hab, hs, ht⟩ := h.factors
  rw [hs, ht]
  exact ⟨mul_pos hpos hb, mul_le_mul hle hab hb.le (hpos.le.trans hle)⟩

/-! ## Closing and opening in both -/

theorem friction_le (hle : c₁ ≤ c₂) : c₁ / 10000 ≤ c₂ / 10000 :=
  div_le_div_of_nonneg_right hle (by norm_num)

theorem friction_lt (hlt : c₂ < 10000) : c₂ / 10000 < 1 := (div_lt_one (by norm_num)).mpr hlt

/-- A close multiplies by less at the higher cost. -/
theorem closeMultiplier_anti {p q : OpenPosition} (h : SameEntry c₁ c₂ p q) (hle : c₁ ≤ c₂)
    (price : ℚ) : closeMultiplier q price (c₂ / 10000) ≤ closeMultiplier p price (c₁ / 10000) := by
  unfold closeMultiplier
  rw [h.weight, h.price]
  exact max_le_max (sub_le_sub_left (friction_le hle) _) (le_refl _)

/-- **A close** of the first run is one of the second. -/
theorem Paired.closePosition (h : Paired c₁ c₂ s t) (hc : AtCosts c₁ c₂ args₁ args₂) {bar : ℕ}
    {exit : Candle} {price : ℚ} {hprice : 0 < price} {p : OpenPosition}
    (hsome : s.position = some p)
    (hclose : s.closePosition args₁.costBps bar exit price hprice p = .ok s') :
    ∃ q t', t.position = some q ∧ t.closePosition args₂.costBps bar exit price hprice q = .ok t' ∧
      Paired c₁ c₂ s' t' ∧ Scaled s s' t t' ∧ s'.position = none ∧ t'.position = none := by
  obtain ⟨hnotional, hfees, rfl⟩ := closePosition_ok hclose
  have hposition := h.position
  rw [hsome] at hposition
  generalize hq : t.position = position at hposition
  cases hposition with
  | @some _ q hentry =>
  have hequity : 0 < s.equity := h.equity_pos.trans_le h.equity_le
  -- the fees of the first run were checked, so its cost is no gain
  have hnonneg : 0 ≤ c₁ := by
    rw [hc.cost₁, hentry.fees, ← add_mul] at hfees
    have hfriction := nonneg_of_mul_nonneg_right hfees (add_pos hentry.notional_pos hequity)
    linarith
  have hnonneg' : 0 ≤ c₂ / 10000 := div_nonneg (hnonneg.trans hc.le) (by norm_num)
  have hfees' : 0 ≤ q.fees + t.equity * (args₂.costBps exit t.equity / 10000) := by
    rw [hc.cost₂, hentry.fees', ← add_mul]
    exact mul_nonneg (add_pos hentry.notional_pos' h.equity_pos).le hnonneg'
  have hscaled : Scaled s (s.closed args₁.costBps bar exit price hprice p hnotional hfees) t
      (t.closed args₂.costBps bar exit price hprice q hentry.notional_pos'.le hfees') := by
    refine ⟨⟨closeMultiplier p price (c₁ / 10000), closeMultiplier q price (c₂ / 10000),
      closeMultiplier_pos _ _ _, closeMultiplier_anti hentry hc.le price, ?_, ?_⟩, rfl, rfl⟩
    · show s.equity * _ = _
      rw [hc.cost₁]
    · show t.equity * _ = _
      rw [hc.cost₂]
  obtain ⟨hpos, hle⟩ := hscaled.equity_le h.equity_pos h.equity_le
  refine ⟨q, _, rfl, dif_pos ⟨hentry.notional_pos'.le, hfees'⟩, ?_, hscaled, rfl, rfl⟩
  refine ⟨hpos, hle, .none, ?_, ?_, ?_, ?_, fun _ => hnonneg, ?_⟩
  · refine List.rel_append h.log (.cons ?_ .nil)
    have hside : (closedTrade q exit price (t.equity * closeMultiplier q price
        (args₂.costBps exit t.equity / 10000)) (t.equity * (args₂.costBps exit t.equity / 10000))
        hprice hentry.notional_pos'.le hfees').side = if 0 < p.weight then .buy else .sell := by
      rw [← hentry.weight]
      rfl
    exact ⟨hentry.openedAt, rfl, hentry.price, rfl, hside, hentry.regime, hentry.strategyIds⟩
  · show t.fills ++ _ = s.fills ++ _
    rw [h.fills]
  · show t.totalFees + t.equity * (args₂.costBps exit t.equity / 10000)
      = (t.totalTurnover + t.equity) * (c₂ / 10000)
    rw [h.fees, hc.cost₂, add_mul]
  · exact add_nonneg h.turnover_nonneg h.equity_pos.le
  · intro hempty
    exact absurd hempty (List.append_ne_nil_of_right_ne_nil _ (List.cons_ne_nil _ _))

/-- **An entry** of the first run is one of the second. -/
theorem Paired.openPosition (h : Paired c₁ c₂ s t) (hc : AtCosts c₁ c₂ args₁ args₂) {bar : ℕ}
    {next : Candle} {d : Decision} (hweight : d.weight ≠ 0) :
    Paired c₁ c₂ (s.openPosition args₁.costBps bar next d hweight)
        (t.openPosition args₂.costBps bar next d hweight) ∧
      Scaled s (s.openPosition args₁.costBps bar next d hweight) t
        (t.openPosition args₂.costBps bar next d hweight) := by
  have hscaled : Scaled s (s.openPosition args₁.costBps bar next d hweight) t
      (t.openPosition args₂.costBps bar next d hweight) := by
    refine ⟨⟨1 - c₁ / 10000, 1 - c₂ / 10000, sub_pos.mpr (friction_lt hc.lt),
      sub_le_sub_left (friction_le hc.le) 1, ?_, ?_⟩, rfl, rfl⟩
    · show s.equity * (1 - args₁.costBps next s.equity / 10000) = _
      rw [hc.cost₁]
    · show t.equity * (1 - args₂.costBps next t.equity / 10000) = _
      rw [hc.cost₂]
  obtain ⟨hpos, hle⟩ := hscaled.equity_le h.equity_pos h.equity_le
  refine ⟨⟨hpos, hle, .some ?_, h.log, ?_, ?_, ?_, h.checked, ?_⟩, hscaled⟩
  · refine ⟨rfl, rfl, rfl, rfl, rfl, h.equity_pos.trans_le h.equity_le, h.equity_pos, ?_, ?_⟩
    · show s.equity * (args₁.costBps next s.equity / 10000) = _
      rw [hc.cost₁]
    · show t.equity * (args₂.costBps next t.equity / 10000) = _
      rw [hc.cost₂]
  · show t.fills ++ _ = s.fills ++ _
    rw [h.fills]
  · show t.totalFees + t.equity * (args₂.costBps next t.equity / 10000)
      = (t.totalTurnover + t.equity) * (c₂ / 10000)
    rw [h.fees, hc.cost₂, add_mul]
  · exact add_nonneg h.turnover_nonneg h.equity_pos.le
  · rintro - ⟨⟩

theorem Paired.weight_eq (h : Paired c₁ c₂ s t) : t.weight = s.weight := by
  have hposition := h.position
  unfold weight
  revert hposition
  generalize s.position = p
  generalize t.position = q
  intro hposition
  cases hposition with
  | none => rfl
  | some hentry => exact hentry.weight

theorem Paired.position_none (h : Paired c₁ c₂ s t) (hnone : s.position = none) :
    t.position = none := by
  have hposition := h.position
  rw [hnone] at hposition
  generalize t.position = q at hposition
  cases hposition
  rfl

/-- **Trading to a weight** in both. -/
theorem Paired.rebalance (h : Paired c₁ c₂ s t) (hc : AtCosts c₁ c₂ args₁ args₂) {bar : ℕ}
    {next : Candle} {d : Decision} (hrun : s.rebalance args₁ bar next d = .ok s') :
    ∃ t', t.rebalance args₂ bar next d = .ok t' ∧ Paired c₁ c₂ s' t' ∧ Scaled s s' t t' := by
  unfold SimulationState.rebalance at hrun ⊢
  rw [h.weight_eq, hc.threshold]
  split at hrun
  · rename_i hmoves
    rw [if_pos hmoves]
    -- both close what is open
    have hclosed : ∀ s₁, s.closeOpen args₁.costBps bar next next.openPrice next.open_pos = .ok s₁ →
        ∃ t₁, t.closeOpen args₂.costBps bar next next.openPrice next.open_pos = .ok t₁ ∧
          Paired c₁ c₂ s₁ t₁ ∧ Scaled s s₁ t t₁ := by
      intro s₁ hs₁
      unfold closeOpen at hs₁ ⊢
      cases hposition : s.position with
      | none =>
        rw [hposition] at hs₁
        cases hs₁
        rw [h.position_none hposition]
        exact ⟨t, rfl, h, .refl s t⟩
      | some p =>
        rw [hposition] at hs₁
        obtain ⟨q, t₁, hq, hclose, hpaired, hscaled, -⟩ := h.closePosition hc hposition hs₁
        rw [hq]
        exact ⟨t₁, hclose, hpaired, hscaled⟩
    cases hclose : s.closeOpen args₁.costBps bar next next.openPrice next.open_pos with
    | error e =>
      rw [hclose] at hrun
      cases hrun
    | ok s₁ =>
      rw [hclose] at hrun
      obtain ⟨t₁, hclose', hpaired, hscaled⟩ := hclosed s₁ hclose
      rw [hclose']
      dsimp only at hrun ⊢
      split at hrun
      · rename_i hweight
        cases hrun
        rw [dif_pos hweight]
        obtain ⟨hopened, hopen⟩ := hpaired.openPosition hc hweight
        exact ⟨_, rfl, hopened, hscaled.trans hopen⟩
      · rename_i hweight
        cases hrun
        rw [dif_neg hweight]
        exact ⟨t₁, rfl, hpaired, hscaled⟩
  · rename_i hstays
    cases hrun
    rw [if_neg hstays]
    exact ⟨t, rfl, h, .refl s t⟩

/-! ## Bars -/

/-- The runs after a bar: paired, and the second at least as far below its peak. -/
structure Dearer (c₁ c₂ : ℚ) (s t : SimulationState) : Prop where
  paired : Paired c₁ c₂ s t
  behind : Watermark.Behind s.watermark t.watermark s.equity t.equity

theorem Paired.observe (h : Paired c₁ c₂ s' t') (hscaled : Scaled s s' t t')
    (hpos : 0 < t.equity) (hle : t.equity ≤ s.equity)
    (hbehind : Watermark.Behind s.watermark t.watermark s.equity t.equity) :
    Dearer c₁ c₂ s'.observe t'.observe := by
  obtain ⟨a, b, hb, hab, hs, ht⟩ := hscaled.factors
  refine ⟨⟨h.equity_pos, h.equity_le, h.position, h.log, h.fills, h.fees, h.turnover_nonneg,
    h.checked, h.idle⟩, ?_⟩
  show Watermark.Behind (s'.watermark.observe s'.equity) (t'.watermark.observe t'.equity) s'.equity
    t'.equity
  rw [hscaled.watermark, hscaled.watermark', hs, ht]
  exact hbehind.observe (hpos.trans_le hle) hpos hb hab

/-- **One bar** of both runs. -/
theorem Dearer.bar (h : Dearer c₁ c₂ s t) (hc : AtCosts c₁ c₂ args₁ args₂)
    {decide : PositionDecision} {seen : List Candle} {next : Candle}
    (hrun : s.simulateBar args₁ decide seen next = .ok s') :
    ∃ t', t.simulateBar args₂ decide seen next = .ok t' ∧ Dearer c₁ c₂ s' t' := by
  unfold simulateBar at hrun ⊢
  cases hdecide : decide seen with
  | error e =>
    rw [hdecide] at hrun
    cases hrun
  | ok d =>
    rw [hdecide] at hrun
    dsimp only at hrun ⊢
    cases hrebalance : s.rebalance args₁ seen.length next d with
    | error e =>
      rw [hrebalance] at hrun
      cases hrun
    | ok s₁ =>
      rw [hrebalance] at hrun
      obtain ⟨t₁, hrebalance', hpaired, hscaled⟩ := h.paired.rebalance hc hrebalance
      rw [hrebalance']
      dsimp only at hrun ⊢
      split at hrun
      · cases hrun
      · cases hrun
        rw [if_neg h.paired.equity_pos.ne']
        exact ⟨_, rfl, hpaired.observe hscaled h.paired.equity_pos h.paired.equity_le h.behind⟩

/-- **All bars**, by induction on those left. -/
theorem Dearer.bars (hc : AtCosts c₁ c₂ args₁ args₂) {decide : PositionDecision}
    (rest : List Candle) :
    ∀ seen s t, Dearer c₁ c₂ s t → simulateBars args₁ decide seen rest s = .ok s' →
      ∃ t', simulateBars args₂ decide seen rest t = .ok t' ∧ Dearer c₁ c₂ s' t' := by
  induction rest with
  | nil =>
    intro seen s t h hrun
    rw [simulateBars] at hrun
    cases hrun
    exact ⟨t, rfl, h⟩
  | cons next rest ih =>
    intro seen s t h hrun
    rw [simulateBars] at hrun ⊢
    cases hbar : s.simulateBar args₁ decide seen next with
    | error e =>
      rw [hbar] at hrun
      cases hrun
    | ok s₁ =>
      rw [hbar] at hrun
      obtain ⟨t₁, hbar', hnext⟩ := h.bar hc hbar
      rw [hbar']
      exact ih (seen ++ [next]) s₁ t₁ hnext hrun

theorem Dearer.finish (h : Dearer c₁ c₂ s t) (hc : AtCosts c₁ c₂ args₁ args₂) {bar : ℕ}
    {last : Candle} (hrun : s.finish args₁ bar last = .ok s') :
    ∃ t', t.finish args₂ bar last = .ok t' ∧ Dearer c₁ c₂ s' t' ∧ s'.position = none := by
  unfold SimulationState.finish at hrun ⊢
  cases hposition : s.position with
  | none =>
    rw [hposition] at hrun
    cases hrun
    rw [h.paired.position_none hposition]
    exact ⟨t, rfl, h, hposition⟩
  | some p =>
    rw [hposition] at hrun
    dsimp only at hrun
    cases hclose : s.closePosition args₁.costBps bar last last.close last.close_pos p with
    | error e =>
      rw [hclose] at hrun
      cases hrun
    | ok s₁ =>
      rw [hclose] at hrun
      cases hrun
      obtain ⟨q, t₁, hq, hclose', hpaired, hscaled, hnone, -⟩ :=
        h.paired.closePosition hc hposition hclose
      rw [hq]
      dsimp only
      rw [hclose']
      exact ⟨_, rfl, hpaired.observe hscaled h.paired.equity_pos h.paired.equity_le h.behind, hnone⟩

theorem dearer_start (hc : AtCosts c₁ c₂ args₁ args₂) :
    Dearer c₁ c₂ (start args₁.startingEquity) (start args₂.startingEquity) := by
  rw [hc.equity]
  refine ⟨⟨args₁.starting_pos, le_refl _, .none, .nil, rfl, (zero_mul _).symm, le_refl 0, ?_, ?_⟩,
    Watermark.Behind.start args₁.starting_pos⟩
  · exact fun hne => absurd rfl hne
  · exact fun _ _ => rfl

/-- **Both simulations.** -/
theorem dearer_simulate (hc : AtCosts c₁ c₂ args₁ args₂) {candles : List Candle} {last : Candle}
    {decide : PositionDecision} (hrun : simulate args₁ candles last decide = .ok s) :
    ∃ t, simulate args₂ candles last decide = .ok t ∧ Dearer c₁ c₂ s t ∧ s.position = none := by
  unfold simulate at hrun ⊢
  rw [hc.warmup]
  cases hbars : simulateBars args₁ decide (candles.take (args₁.warmup + 1))
      (candles.drop (args₁.warmup + 1)) (start args₁.startingEquity) with
  | error e =>
    rw [hbars] at hrun
    cases hrun
  | ok s₁ =>
    rw [hbars] at hrun
    obtain ⟨t₁, hbars', hdearer⟩ := Dearer.bars hc _ _ _ _ (dearer_start hc) hbars
    rw [hbars']
    exact hdearer.finish hc hrun

end SimulationState

open SimulationState

/-- The arguments, at a flat cost. -/
def SimulationArgs.charging (args : SimulationArgs) (feeBps slippageBps : ℚ) : SimulationArgs :=
  { args with costBps := flatCostBps feeBps slippageBps }

/-- A backtest at a higher cost: the same entries and exits, and no better. -/
structure NoBetter (m₁ m₂ : BacktestMetrics) : Prop where
  trades : List.Forall₂ SameTrade m₁.tradeLog m₂.tradeLog
  count : m₂.trades = m₁.trades
  startingEquity : m₂.startingEquity = m₁.startingEquity
  benchmarkReturn : m₂.benchmarkReturn = m₁.benchmarkReturn
  endingEquity : m₂.endingEquity ≤ m₁.endingEquity
  totalReturn : m₂.totalReturn ≤ m₁.totalReturn
  excessReturn : m₂.excessReturn ≤ m₁.excessReturn
  maxDrawdown : m₁.maxDrawdown ≤ m₂.maxDrawdown

/-- A run whose cheaper one is reported is reported, and is no better. -/
theorem noBetter_of_report {c₁ c₂ : ℚ} {args₁ args₂ : SimulationArgs} {s t : SimulationState}
    (hc : AtCosts c₁ c₂ args₁ args₂) (h : Dearer c₁ c₂ s t) (hnone : s.position = none)
    {first last : Candle} {m₁ : BacktestMetrics} (hreport : s.report args₁ first last = .ok m₁) :
    ∃ m₂, t.report args₂ first last = .ok m₂ ∧ NoBetter m₁ m₂ := by
  obtain ⟨hm₁, hbenchmark₁⟩ := reported_of_report hreport
  have hfees : 0 ≤ t.totalFees := by
    rw [h.paired.fees]
    by_cases hlog : s.tradeLog = []
    · rw [h.paired.idle hlog hnone, zero_mul]
    · have hnonneg := (h.paired.checked hlog).trans hc.le
      exact mul_nonneg h.paired.turnover_nonneg (div_nonneg hnonneg (by norm_num))
  have hworst : 0 ≤ t.watermark.worst := by
    have hworst₁ := m₁.maxDrawdown_nonneg
    rw [hm₁.maxDrawdown] at hworst₁
    exact hworst₁.trans h.behind.worst
  have hreturns : ∃ m₂, t.report args₂ first last = .ok m₂ :=
    ⟨_, dif_pos ⟨h.paired.equity_pos, hworst,
      div_nonneg h.paired.turnover_nonneg args₂.starting_pos.le, hfees⟩⟩
  obtain ⟨m₂, hreport₂⟩ := hreturns
  obtain ⟨hm₂, hbenchmark₂⟩ := reported_of_report hreport₂
  have hbenchmark : m₂.benchmarkReturn = m₁.benchmarkReturn := hbenchmark₂.trans hbenchmark₁.symm
  have htotal : m₂.totalReturn ≤ m₁.totalReturn := by
    rw [hm₁.totalReturn, hm₂.totalReturn, hc.equity]
    refine sub_le_sub_right ?_ 1
    exact div_le_div_of_nonneg_right h.paired.equity_le args₁.starting_pos.le
  refine ⟨m₂, hreport₂, ?_, ?_, ?_, hbenchmark, ?_, htotal, ?_, ?_⟩
  · rw [hm₁.tradeLog, hm₂.tradeLog]
    exact h.paired.log
  · rw [hm₁.trades, hm₂.trades, h.paired.log.length_eq]
  · rw [hm₁.startingEquity, hm₂.startingEquity, hc.equity]
  · rw [hm₁.endingEquity, hm₂.endingEquity]
    exact h.paired.equity_le
  · rw [hm₁.excessReturn, hm₂.excessReturn, hbenchmark]
    exact sub_le_sub_right htotal _
  · rw [hm₁.maxDrawdown, hm₂.maxDrawdown]
    exact h.behind.worst

/-- **Backtests are antitone in costs**: where the one at the lower cost returns, the
one at the higher cost does, and is no better. -/
theorem noBetter_of_costs {args : SimulationArgs} {candles : List Candle}
    {decide : PositionDecision} {fee₁ slippage₁ fee₂ slippage₂ : ℚ}
    (hle : fee₁ + slippage₁ ≤ fee₂ + slippage₂) (hlt : fee₂ + slippage₂ < 10000)
    {m₁ : BacktestMetrics}
    (h : simulatePositions (args.charging fee₁ slippage₁) candles decide = .ok m₁) :
    ∃ m₂, simulatePositions (args.charging fee₂ slippage₂) candles decide = .ok m₂ ∧
      NoBetter m₁ m₂ := by
  have hc : AtCosts (fee₁ + slippage₁) (fee₂ + slippage₂) (args.charging fee₁ slippage₁)
      (args.charging fee₂ slippage₂) := ⟨rfl, rfl, rfl, fun _ _ => rfl, fun _ _ => rfl, hle, hlt⟩
  obtain ⟨hinterval, s, hs⟩ := simulatePositions_ok_iff.mp h
  obtain ⟨last, hlast, hrun, first, hfirst, hreport⟩ := hs.run
  obtain ⟨t, hrun', hdearer, hnone⟩ := dearer_simulate hc hrun
  obtain ⟨m₂, hreport', hno⟩ := noBetter_of_report hc hdearer hnone hreport
  exact ⟨m₂, simulatePositions_ok_iff.mpr ⟨hinterval, t, hs.warmup, last, hlast, hrun', first,
    hfirst, hreport'⟩, hno⟩

end TraderStack
