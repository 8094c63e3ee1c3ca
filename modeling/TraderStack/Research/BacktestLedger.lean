import TraderStack.Research.Backtest

/-!
# The trade log and the equity of a backtest

Every state of a simulation is reached by closing, opening and observing
(`simulate_invariant`), so what these three keep holds at the end. Two invariants are
carried through: the equity is what the trades multiplied it to, with an open
position standing at the notional it was entered with (`Settled`); and the fills are
the entries and the exits of the trades, one after the other (`Logged`).

- `ledger_identity`: the log adds up to the equity and to the fees.
-/

namespace TraderStack

open Lib

namespace SimulationState

variable {args : SimulationArgs} {candles : List Candle} {decide : PositionDecision}
  {s s' : SimulationState}

/-! ## What a bar does -/

theorem closePosition_ok {costBps : CostModel} {bar : ℕ} {exit : Candle} {price : ℚ}
    {hprice : 0 < price} {p : OpenPosition}
    (h : s.closePosition costBps bar exit price hprice p = .ok s') :
    ∃ hnotional hfees, s' = s.closed costBps bar exit price hprice p hnotional hfees := by
  unfold closePosition at h
  split at h
  · rename_i hvalid
    exact ⟨hvalid.1, hvalid.2, (Except.ok.inj h).symm⟩
  · cases h

/-- What trading to a decided weight does: nothing, or it opens, closes or flips. -/
inductive Traded (args : SimulationArgs) (bar : ℕ) (next : Candle) (d : Decision)
    (s : SimulationState) : SimulationState → Prop
  | kept : Traded args bar next d s s
  | opened (hnone : s.position = none) (hweight : d.weight ≠ 0) :
    Traded args bar next d s (s.openPosition args.costBps bar next d hweight)
  | closed (p : OpenPosition) (hsome : s.position = some p) (hnotional : 0 ≤ p.notional)
      (hfees : 0 ≤ p.fees + s.equity * (args.costBps next s.equity / 10000)) :
    Traded args bar next d s
      (s.closed args.costBps bar next next.openPrice next.open_pos p hnotional hfees)
  | flipped (p : OpenPosition) (hsome : s.position = some p) (hnotional : 0 ≤ p.notional)
      (hfees : 0 ≤ p.fees + s.equity * (args.costBps next s.equity / 10000))
      (hweight : d.weight ≠ 0) :
    Traded args bar next d s
      ((s.closed args.costBps bar next next.openPrice next.open_pos p hnotional
        hfees).openPosition args.costBps bar next d hweight)

theorem traded_of_rebalance {bar : ℕ} {next : Candle} {d : Decision}
    (h : s.rebalance args bar next d = .ok s') : Traded args bar next d s s' := by
  unfold rebalance closeOpen at h
  split at h
  · cases hposition : s.position with
    | none =>
      rw [hposition] at h
      dsimp only at h
      split at h
      · rename_i hweight
        cases h
        exact .opened hposition hweight
      · cases h
        exact .kept
    | some p =>
      rw [hposition] at h
      dsimp only at h
      cases hclose : s.closePosition args.costBps bar next next.openPrice next.open_pos p with
      | error e =>
        rw [hclose] at h
        cases h
      | ok s₁ =>
        rw [hclose] at h
        obtain ⟨hnotional, hfees, rfl⟩ := closePosition_ok hclose
        dsimp only at h
        split at h
        · rename_i hweight
          cases h
          exact .flipped p hposition hnotional hfees hweight
        · cases h
          exact .closed p hposition hnotional hfees
  · cases h
    exact .kept

/-- What a bar that does not raise does. -/
theorem simulateBar_ok {seen : List Candle} {next : Candle}
    (h : s.simulateBar args decide seen next = .ok s') :
    ∃ d s₁, decide seen = .ok d ∧ Traded args seen.length next d s s₁ ∧ s.equity ≠ 0 ∧
      s' = s₁.observe := by
  unfold simulateBar at h
  split at h
  · cases h
  · rename_i d hdecide
    split at h
    · cases h
    · rename_i s₁ hrebalance
      split at h
      · cases h
      · rename_i hequity
        cases h
        exact ⟨d, s₁, hdecide, traded_of_rebalance hrebalance, hequity, rfl⟩

/-! ## The invariant rule -/

/-- What closing, opening and observing keep, at bars that only grow. -/
structure Keeps (args : SimulationArgs) (candles : List Candle)
    (I : ℕ → SimulationState → Prop) : Prop where
  close : ∀ bar exit s p price hprice hnotional hfees, candles[bar]? = some exit →
    (price = exit.openPrice ∨ price = exit.close) → s.position = some p → I bar s →
    I bar (s.closed args.costBps bar exit price hprice p hnotional hfees)
  enter : ∀ bar next s d hweight, candles[bar]? = some next → s.position = none → I bar s →
    I bar (s.openPosition args.costBps bar next d hweight)
  observe : ∀ bar s, I bar s → I bar s.observe
  later : ∀ bar bar' s, bar ≤ bar' → I bar s → I bar' s

variable {I : ℕ → SimulationState → Prop}

theorem Keeps.traded (h : Keeps args candles I) {bar : ℕ} {next : Candle} {d : Decision}
    (hnext : candles[bar]? = some next) (hI : I bar s) (htraded : Traded args bar next d s s') :
    I bar s' := by
  cases htraded with
  | kept => exact hI
  | opened hnone hweight => exact h.enter bar next s d hweight hnext hnone hI
  | closed p hsome hnotional hfees =>
    exact h.close bar next s p _ _ hnotional hfees hnext (.inl rfl) hsome hI
  | flipped p hsome hnotional hfees hweight =>
    have hclosed := h.close bar next s p _ next.open_pos hnotional hfees hnext (.inl rfl) hsome hI
    exact h.enter bar next _ d hweight hnext rfl hclosed

/-- **One bar** keeps the invariant. -/
theorem Keeps.bar (h : Keeps args candles I) {seen : List Candle} {next : Candle}
    (hnext : candles[seen.length]? = some next) (hI : I seen.length s)
    (hbar : s.simulateBar args decide seen next = .ok s') : I seen.length s' := by
  obtain ⟨d, s₁, -, htraded, -, rfl⟩ := simulateBar_ok hbar
  exact h.observe _ s₁ (h.traded hnext hI htraded)

/-- **The bars** keep it, by induction on those left. -/
theorem Keeps.bars (h : Keeps args candles I) (rest : List Candle) :
    ∀ seen s, candles = seen ++ rest → I (seen.length - 1) s →
      simulateBars args decide seen rest s = .ok s' → I (candles.length - 1) s' := by
  induction rest with
  | nil =>
    intro seen s hcandles hI hrun
    rw [simulateBars] at hrun
    cases hrun
    rw [hcandles, List.append_nil]
    exact hI
  | cons next rest ih =>
    intro seen s hcandles hI hrun
    rw [simulateBars] at hrun
    cases hbar : s.simulateBar args decide seen next with
    | error e =>
      rw [hbar] at hrun
      cases hrun
    | ok s₁ =>
      rw [hbar] at hrun
      have hnext : candles[seen.length]? = some next := by
        rw [hcandles, List.getElem?_append_right (le_refl _), Nat.sub_self]
        rfl
      have hbefore := h.later _ _ s (Nat.sub_le seen.length 1) hI
      refine ih (seen ++ [next]) s₁ (by rw [hcandles]; simp) ?_ hrun
      rw [List.length_append, List.length_singleton, Nat.add_sub_cancel]
      exact h.bar hnext hbefore hbar

theorem finish_cases {bar : ℕ} {last : Candle} (h : s.finish args bar last = .ok s') :
    (s.position = none ∧ s' = s) ∨
    ∃ p hnotional hfees, s.position = some p ∧
      s' = (s.closed args.costBps bar last last.close last.close_pos p hnotional
        hfees).observe := by
  unfold finish at h
  cases hposition : s.position with
  | none =>
    rw [hposition] at h
    cases h
    exact .inl ⟨rfl, rfl⟩
  | some p =>
    rw [hposition] at h
    dsimp only at h
    cases hclose : s.closePosition args.costBps bar last last.close last.close_pos p with
    | error e =>
      rw [hclose] at h
      cases h
    | ok s₁ =>
      rw [hclose] at h
      cases h
      obtain ⟨hnotional, hfees, rfl⟩ := closePosition_ok hclose
      exact .inr ⟨p, hnotional, hfees, rfl, rfl⟩

/-- **A simulation** keeps the invariant, up to the close at the end; and it ends with
nothing open. -/
theorem Keeps.simulate (h : Keeps args candles I) (hwarmup : args.warmup < candles.length)
    {last : Candle} (hlast : candles.getLast? = some last)
    (hstart : I args.warmup (start args.startingEquity))
    (hrun : SimulationState.simulate args candles last decide = .ok s) :
    I (candles.length - 1) s ∧ s.position = none := by
  unfold SimulationState.simulate at hrun
  cases hbars : simulateBars args decide (candles.take (args.warmup + 1))
      (candles.drop (args.warmup + 1)) (SimulationState.start args.startingEquity) with
  | error e =>
    rw [hbars] at hrun
    cases hrun
  | ok s₁ =>
    rw [hbars] at hrun
    dsimp only at hrun
    have hbefore : I (candles.length - 1) s₁ := by
      refine h.bars _ _ _ (List.take_append_drop _ _).symm ?_ hbars
      rw [List.length_take, min_eq_left hwarmup, Nat.add_sub_cancel]
      exact hstart
    rcases finish_cases hrun with ⟨hnone, rfl⟩ | ⟨p, hnotional, hfees, hsome, rfl⟩
    · exact ⟨hbefore, hnone⟩
    · have hbar : candles[candles.length - 1]? = some last := by
        rw [← hlast, List.getLast?_eq_getElem?]
      exact ⟨h.observe _ _ (h.close _ last s₁ p _ last.close_pos hnotional hfees hbar (.inr rfl)
        hsome hbefore), rfl⟩

/-- With no position, nothing is asked of one. -/
theorem of_mem_none {P : OpenPosition → Prop} : ∀ p ∈ (none : Option OpenPosition), P p := by
  rintro p ⟨⟩

/-! ## The equity -/

/-- The equity is what the trades multiplied it to, an open position at the notional
it was entered with; and nothing was ever lost whole. -/
structure Settled (start : ℚ) (s : SimulationState) : Prop where
  equity_pos : 0 < s.equity
  product : s.position.elim s.equity OpenPosition.notional
    = start * (s.tradeLog.map fun t => 1 + t.returnPct).prod
  fees : s.totalFees
    = (s.tradeLog.map BacktestTrade.feesPaid).sum + s.position.elim 0 OpenPosition.fees
  notional_pos : ∀ p ∈ s.position, 0 < p.notional
  path_pos : ∀ x ∈ s.path, 0 < x
  notionals_pos : ∀ t ∈ s.tradeLog, 0 < t.notionalUsd

theorem settled_start {equity : ℚ} (h : 0 < equity) : Settled equity (start equity) where
  equity_pos := h
  product := (mul_one equity).symm
  fees := (add_zero (0 : ℚ)).symm
  notional_pos := of_mem_none
  path_pos := fun _ hx => absurd hx List.not_mem_nil
  notionals_pos := fun _ ht => absurd ht List.not_mem_nil

theorem closeMultiplier_pos (p : OpenPosition) (price friction : ℚ) :
    0 < closeMultiplier p price friction :=
  lt_max_of_lt_right (by norm_num [multiplierFloor])

/-- Closing settles the trade: its return is that of the notional it was entered
with. -/
theorem Settled.closed {start : ℚ} {costBps : CostModel} {bar : ℕ} {exit : Candle} {price : ℚ}
    {hprice : 0 < price} {p : OpenPosition} {hnotional : 0 ≤ p.notional}
    {hfees : 0 ≤ p.fees + s.equity * (costBps exit s.equity / 10000)} (h : Settled start s)
    (hsome : s.position = some p) :
    Settled start (s.closed costBps bar exit price hprice p hnotional hfees) := by
  have hpos : 0 < p.notional := h.notional_pos p hsome
  have hproduct := h.product
  have htotal := h.fees
  rw [hsome, Option.elim_some] at hproduct htotal
  refine ⟨mul_pos h.equity_pos (closeMultiplier_pos _ _ _), ?_, ?_, of_mem_none, h.path_pos, ?_⟩
  · show s.equity * _
      = start * ((s.tradeLog ++ [_]).map fun t : BacktestTrade => 1 + t.returnPct).prod
    rw [List.map_append, List.prod_append, ← mul_assoc, ← hproduct, List.map_singleton,
      List.prod_singleton]
    show _ = p.notional * (1 + if 0 < p.notional then _ else 0)
    rw [if_pos hpos]
    field_simp
    ring
  · show s.totalFees + _ = ((s.tradeLog ++ [_]).map BacktestTrade.feesPaid).sum + 0
    rw [List.map_append, List.sum_append, List.map_singleton, List.sum_singleton, htotal]
    show _ = _ + (p.fees + _) + 0
    ring
  · intro t ht
    rcases List.mem_append.mp ht with hold | hnew
    · exact h.notionals_pos t hold
    · rw [List.mem_singleton.mp hnew]
      exact hpos

/-- Opening takes the costs, and keeps the notional. -/
theorem Settled.openPosition {start : ℚ} {costBps : CostModel} {bar : ℕ} {next : Candle}
    {d : Decision} {hweight : d.weight ≠ 0} (hcost : ∀ candle x, costBps candle x < 10000)
    (h : Settled start s) (hnone : s.position = none) :
    Settled start (s.openPosition costBps bar next d hweight) := by
  have hproduct := h.product
  have htotal := h.fees
  rw [hnone, Option.elim_none] at hproduct htotal
  have hfriction : costBps next s.equity / 10000 < 1 := by
    rw [div_lt_one (by norm_num)]
    exact hcost next s.equity
  refine ⟨mul_pos h.equity_pos (sub_pos.mpr hfriction), hproduct, ?_, ?_, h.path_pos,
    h.notionals_pos⟩
  · show s.totalFees + s.equity * _ = _ + s.equity * _
    rw [htotal, add_zero]
    rfl
  · rintro p ⟨⟩
    exact h.equity_pos

theorem keeps_settled (hcost : ∀ candle x, args.costBps candle x < 10000) (start : ℚ) :
    Keeps args candles fun _ => Settled start where
  close := fun _ _ _ _ _ _ _ _ _ _ hsome h => h.closed hsome
  enter := fun _ _ _ _ _ _ hnone h => h.openPosition hcost hnone
  observe := by
    intro _ s h
    refine ⟨h.equity_pos, h.product, h.fees, h.notional_pos, fun x hx => ?_, h.notionals_pos⟩
    rcases List.mem_append.mp hx with hold | hnew
    · exact h.path_pos x hold
    · rw [List.mem_singleton.mp hnew]
      exact h.equity_pos
  later := fun _ _ _ _ h => h

/-! ## The fills and the trades -/

/-- A trade with the bars it was entered and left at, and its weight. -/
structure RoundTrip where
  trade : BacktestTrade
  entryBar : ℕ
  exitBar : ℕ
  weight : ℚ

namespace RoundTrip

/-- The two fills of a trade. -/
def fills (r : RoundTrip) : List BarFill :=
  [.entry r.entryBar r.trade.entryPrice r.weight, .exit r.exitBar r.trade.exitPrice]

/-- The trade is entered at the open of its first bar, and left at the open or the
close of its last. -/
structure Fits (candles : List Candle) (r : RoundTrip) : Prop where
  entry : ∃ c, candles[r.entryBar]? = some c ∧ r.trade.entryTime = c.openedAt ∧
    r.trade.entryPrice = c.openPrice
  exit : ∃ c, candles[r.exitBar]? = some c ∧ r.trade.exitTime = c.openedAt ∧
    (r.trade.exitPrice = c.openPrice ∨ r.trade.exitPrice = c.close)
  ordered : r.entryBar ≤ r.exitBar

end RoundTrip

/-- The fills so far are those of the trades, one after the other, and the entry of
an open position. -/
structure Logged (candles : List Candle) (bar : ℕ) (s : SimulationState)
    (rounds : List RoundTrip) (openBar : ℕ) : Prop where
  trades : rounds.map RoundTrip.trade = s.tradeLog
  fits : ∀ r ∈ rounds, r.Fits candles ∧ r.exitBar ≤ bar
  apart : rounds.Pairwise fun r r' => r.exitBar ≤ r'.entryBar
  fills : s.fills = rounds.flatMap RoundTrip.fills
    ++ s.position.elim [] fun p => [.entry openBar p.price p.weight]
  entered : ∀ p ∈ s.position, openBar ≤ bar ∧ (∀ r ∈ rounds, r.exitBar ≤ openBar) ∧
    ∃ c, candles[openBar]? = some c ∧ p.openedAt = c.openedAt ∧ p.price = c.openPrice

theorem Logged.closed {costBps : CostModel} {bar : ℕ} {exit : Candle} {price : ℚ}
    {hprice : 0 < price} {p : OpenPosition} {hnotional : 0 ≤ p.notional}
    {hfees : 0 ≤ p.fees + s.equity * (costBps exit s.equity / 10000)} {rounds : List RoundTrip}
    {openBar : ℕ} (h : Logged candles bar s rounds openBar) (hexit : candles[bar]? = some exit)
    (hshown : price = exit.openPrice ∨ price = exit.close) (hsome : s.position = some p) :
    Logged candles bar (s.closed costBps bar exit price hprice p hnotional hfees)
      (rounds ++ [⟨closedTrade p exit price (s.equity * closeMultiplier p price
        (costBps exit s.equity / 10000)) (s.equity * (costBps exit s.equity / 10000)) hprice
        hnotional hfees, openBar, bar, p.weight⟩]) openBar := by
  obtain ⟨hopen, hlast, c, hc, htime, hopenPrice⟩ := h.entered p hsome
  have hfills := h.fills
  rw [hsome, Option.elim_some] at hfills
  refine ⟨?_, fun r hr => ?_, ?_, ?_, of_mem_none⟩
  · rw [List.map_append, h.trades]
    rfl
  · rcases List.mem_append.mp hr with hold | hnew
    · exact h.fits r hold
    · rw [List.mem_singleton.mp hnew]
      exact ⟨⟨⟨c, hc, htime, hopenPrice⟩, ⟨exit, hexit, rfl, hshown⟩, hopen⟩, le_refl bar⟩
  · refine List.pairwise_append.mpr ⟨h.apart, List.pairwise_singleton _ _, fun r hr r' hr' => ?_⟩
    rw [List.mem_singleton.mp hr']
    exact hlast r hr
  · show s.fills ++ [_] = _
    rw [hfills, List.flatMap_append, List.append_assoc, List.append_assoc]
    rfl

theorem Logged.openPosition {costBps : CostModel} {bar : ℕ} {next : Candle} {d : Decision}
    {hweight : d.weight ≠ 0} {rounds : List RoundTrip} {openBar : ℕ}
    (h : Logged candles bar s rounds openBar) (hnext : candles[bar]? = some next)
    (hnone : s.position = none) :
    Logged candles bar (s.openPosition costBps bar next d hweight) rounds bar := by
  have hfills := h.fills
  rw [hnone, Option.elim_none, List.append_nil] at hfills
  refine ⟨h.trades, h.fits, h.apart, ?_, ?_⟩
  · show s.fills ++ [_] = _
    rw [hfills]
    rfl
  · rintro p ⟨⟩
    exact ⟨le_refl bar, fun r hr => (h.fits r hr).2, next, hnext, rfl, rfl⟩

theorem keeps_logged :
    Keeps args candles fun bar s => ∃ rounds openBar, Logged candles bar s rounds openBar where
  close := by
    rintro bar exit s p price hprice hnotional hfees hexit hshown hsome ⟨rounds, openBar, h⟩
    exact ⟨_, openBar, h.closed hexit hshown hsome⟩
  enter := by
    rintro bar next s d hweight hnext hnone ⟨rounds, openBar, h⟩
    exact ⟨rounds, bar, h.openPosition hnext hnone⟩
  observe := by
    rintro bar s ⟨rounds, openBar, h⟩
    exact ⟨rounds, openBar, h.trades, h.fits, h.apart, h.fills, h.entered⟩
  later := by
    rintro bar bar' s hle ⟨rounds, openBar, h⟩
    refine ⟨rounds, openBar, h.trades, fun r hr => ?_, h.apart, h.fills, fun p hp => ?_⟩
    · exact ⟨(h.fits r hr).1, (h.fits r hr).2.trans hle⟩
    · obtain ⟨hopen, hrest⟩ := h.entered p hp
      exact ⟨hopen.trans hle, hrest⟩

/-! ## When a simulation returns -/

/-- What keeps a simulation from raising. -/
structure Sound (s : SimulationState) : Prop where
  equity_pos : 0 < s.equity
  position : ∀ p ∈ s.position, 0 < p.notional ∧ 0 ≤ p.fees
  worst_nonneg : 0 ≤ s.watermark.worst
  turnover_nonneg : 0 ≤ s.totalTurnover
  fees_nonneg : 0 ≤ s.totalFees

theorem sound_start {equity : ℚ} (h : 0 < equity) : Sound (start equity) :=
  ⟨h, of_mem_none, le_refl 0, le_refl 0, le_refl 0⟩

/-- The costs of a fill that is charged less than all of it, and never paid for. -/
def Charges (costBps : CostModel) : Prop :=
  ∀ candle x, 0 ≤ costBps candle x ∧ costBps candle x < 10000

theorem Charges.friction {costBps : CostModel} (h : Charges costBps) (candle : Candle) (x : ℚ) :
    0 ≤ costBps candle x / 10000 ∧ costBps candle x / 10000 < 1 := by
  obtain ⟨hnonneg, hlt⟩ := h candle x
  exact ⟨div_nonneg hnonneg (by norm_num), (div_lt_one (by norm_num)).mpr hlt⟩

theorem keeps_sound (hcosts : Charges args.costBps) : Keeps args candles fun _ => Sound where
  close := by
    intro _ exit s p _ _ _ _ _ _ _ h
    have hfees : 0 ≤ s.equity * (args.costBps exit s.equity / 10000) :=
      mul_nonneg h.equity_pos.le (hcosts.friction exit s.equity).1
    exact ⟨mul_pos h.equity_pos (closeMultiplier_pos _ _ _), of_mem_none, h.worst_nonneg,
      add_nonneg h.turnover_nonneg h.equity_pos.le, add_nonneg h.fees_nonneg hfees⟩
  enter := by
    intro _ next s d hweight _ _ h
    obtain ⟨hnonneg, hlt⟩ := hcosts.friction next s.equity
    have hfees := mul_nonneg h.equity_pos.le hnonneg
    refine ⟨mul_pos h.equity_pos (sub_pos.mpr hlt), ?_, h.worst_nonneg,
      add_nonneg h.turnover_nonneg h.equity_pos.le, add_nonneg h.fees_nonneg hfees⟩
    rintro p ⟨⟩
    exact ⟨h.equity_pos, hfees⟩
  observe := fun _ s h => ⟨h.equity_pos, h.position,
    h.worst_nonneg.trans (s.watermark.le_worst_observe s.equity), h.turnover_nonneg, h.fees_nonneg⟩
  later := fun _ _ _ _ h => h

theorem Sound.closePosition (h : Sound s) {costBps : CostModel} (hcosts : Charges costBps)
    {p : OpenPosition} (hsome : s.position = some p) (bar : ℕ) (exit : Candle) (price : ℚ)
    (hprice : 0 < price) : ∃ s', s.closePosition costBps bar exit price hprice p = .ok s' := by
  obtain ⟨hnotional, hfees⟩ := h.position p hsome
  have htotal : 0 ≤ p.fees + s.equity * (costBps exit s.equity / 10000) :=
    add_nonneg hfees (mul_nonneg h.equity_pos.le (hcosts.friction exit s.equity).1)
  exact ⟨_, dif_pos ⟨hnotional.le, htotal⟩⟩

theorem Sound.rebalance (h : Sound s) (hcosts : Charges args.costBps) (bar : ℕ) (next : Candle)
    (d : Decision) : ∃ s', s.rebalance args bar next d = .ok s' := by
  unfold SimulationState.rebalance closeOpen
  split
  · cases hposition : s.position with
    | none =>
      dsimp only
      split
      · exact ⟨_, rfl⟩
      · exact ⟨_, rfl⟩
    | some p =>
      obtain ⟨s₁, hclose⟩ := h.closePosition hcosts hposition bar next _ next.open_pos
      dsimp only
      rw [hclose]
      dsimp only
      split
      · exact ⟨_, rfl⟩
      · exact ⟨_, rfl⟩
  · exact ⟨s, rfl⟩

/-- A bar returns if its decision does. -/
theorem Sound.bar (h : Sound s) (hcosts : Charges args.costBps) {seen : List Candle}
    {d : Decision} (hdecide : decide seen = .ok d) (next : Candle) :
    ∃ s', s.simulateBar args decide seen next = .ok s' ∧ Sound s' := by
  obtain ⟨s₁, hrebalance⟩ := h.rebalance hcosts seen.length next d
  have hbar : s.simulateBar args decide seen next = .ok s₁.observe := by
    unfold simulateBar
    rw [hdecide]
    dsimp only
    rw [hrebalance]
    exact if_neg h.equity_pos.ne'
  have hnext : (seen ++ [next])[seen.length]? = some next := List.getElem?_concat_length
  exact ⟨_, hbar, (keeps_sound hcosts).bar hnext h hbar⟩

/-- **The bars return** if every decision does. -/
theorem Sound.bars (hcosts : Charges args.costBps) (rest : List Candle) :
    ∀ seen s, candles = seen ++ rest → Sound s →
      (∀ k, seen.length ≤ k → k < candles.length → ∃ d, decide (candles.take k) = .ok d) →
      ∃ s', simulateBars args decide seen rest s = .ok s' ∧ Sound s' := by
  induction rest with
  | nil => exact fun seen s _ h _ => ⟨s, rfl, h⟩
  | cons next rest ih =>
    intro seen s hcandles h hdecide
    have hlength : seen.length < candles.length := by
      rw [hcandles]
      simp
    have hwindow : candles.take seen.length = seen := by rw [hcandles, List.take_left]
    obtain ⟨d, hd⟩ := hdecide seen.length (le_refl _) hlength
    rw [hwindow] at hd
    obtain ⟨s₁, hbar, hafter⟩ := h.bar hcosts hd next
    rw [simulateBars, hbar]
    refine ih (seen ++ [next]) s₁ (by rw [hcandles]; simp) hafter fun k hk hlt => ?_
    exact hdecide k (Nat.le_of_succ_le (by simpa using hk)) hlt

/-- What bars raise does not depend on the costs: it is raised by a decision. -/
theorem Sound.bars_error {args' : SimulationArgs} (hcosts : Charges args.costBps)
    (hcosts' : Charges args'.costBps) {e : ResearchError} (rest : List Candle) :
    ∀ seen s t, Sound s → Sound t → simulateBars args decide seen rest s = .error e →
      simulateBars args' decide seen rest t = .error e := by
  induction rest with
  | nil =>
    intro seen s t _ _ hrun
    cases hrun
  | cons next rest ih =>
    intro seen s t hs ht hrun
    rw [simulateBars] at hrun ⊢
    cases hdecide : decide seen with
    | error e' =>
      have hraises : ∀ args s, simulateBar s args decide seen next = .error e' := by
        intro args s
        unfold simulateBar
        rw [hdecide]
      rw [hraises] at hrun ⊢
      exact hrun
    | ok d =>
      obtain ⟨s₁, hbar, hs₁⟩ := hs.bar hcosts hdecide next
      obtain ⟨t₁, hbar', ht₁⟩ := ht.bar hcosts' hdecide next
      rw [hbar] at hrun
      rw [hbar']
      exact ih (seen ++ [next]) s₁ t₁ hs₁ ht₁ hrun

/-- The close at the end returns. -/
theorem Sound.finish (h : Sound s) (hcosts : Charges args.costBps) (bar : ℕ) (last : Candle) :
    ∃ s', s.finish args bar last = .ok s' := by
  unfold SimulationState.finish
  cases hposition : s.position with
  | none => exact ⟨s, rfl⟩
  | some p =>
    obtain ⟨s₁, hclose⟩ := h.closePosition hcosts hposition bar last _ last.close_pos
    dsimp only
    rw [hclose]
    exact ⟨_, rfl⟩

/-- A report on it passes every check of `BacktestMetrics`. -/
theorem Sound.report (h : Sound s) (args : SimulationArgs) (first last : Candle) :
    ∃ m, s.report args first last = .ok m := by
  have hturnover : 0 ≤ s.totalTurnover / args.startingEquity :=
    div_nonneg h.turnover_nonneg args.starting_pos.le
  exact ⟨_, dif_pos ⟨h.equity_pos, h.worst_nonneg, hturnover, h.fees_nonneg⟩⟩

/-- What a simulation raises does not depend on its costs. -/
theorem simulate_error {args' : SimulationArgs} (hcosts : Charges args.costBps)
    (hcosts' : Charges args'.costBps) (hwarmup : args'.warmup = args.warmup) {last : Candle}
    {e : ResearchError} (h : simulate args candles last decide = .error e) :
    simulate args' candles last decide = .error e := by
  unfold simulate at h ⊢
  rw [hwarmup]
  cases hbars : simulateBars args decide (candles.take (args.warmup + 1))
      (candles.drop (args.warmup + 1)) (start args.startingEquity) with
  | error e' =>
    rw [hbars] at h
    rw [Sound.bars_error hcosts hcosts' _ _ _ (start args'.startingEquity)
      (sound_start args.starting_pos) (sound_start args'.starting_pos) hbars]
    exact h
  | ok s =>
    -- after the bars nothing is raised
    rw [hbars] at h
    have hsound : Sound s := (keeps_sound hcosts).bars _ _ _ (List.take_append_drop _ _).symm
      (sound_start args.starting_pos) hbars
    obtain ⟨s', hfinish⟩ := hsound.finish hcosts (candles.length - 1) last
    dsimp only at h
    rw [hfinish] at h
    cases h

end SimulationState

/-! ## The ledger identity -/

open SimulationState

section

variable {args : SimulationArgs} {candles : List Candle} {decide : PositionDecision}

/-- The metrics of a simulation are read off the state it ends with. -/
structure ReportOf (args : SimulationArgs) (candles : List Candle) (decide : PositionDecision)
    (m : BacktestMetrics) (s : SimulationState) : Prop where
  warmup : args.warmup < candles.length
  run : ∃ last, candles.getLast? = some last ∧ simulate args candles last decide = .ok s ∧
    ∃ first, candles[args.warmup]? = some first ∧ s.report args first last = .ok m

/-- The interval of the bars is one that has a length. -/
def HasInterval (candles : List Candle) : Prop :=
  ∃ first, candles.head? = some first ∧ ∃ periods, periodsPerYear first.interval = .ok periods

theorem head?_eq_get (hpos : 0 < candles.length) :
    candles.head? = some (candles.get ⟨0, hpos⟩) := by
  rw [List.head?_eq_getElem?, List.getElem?_eq_getElem hpos]
  rfl

/-- **When a backtest returns what.** -/
theorem simulatePositions_ok_iff {m : BacktestMetrics} :
    simulatePositions args candles decide = .ok m ↔
      HasInterval candles ∧ ∃ s, ReportOf args candles decide m s := by
  constructor
  · intro h
    unfold simulatePositions at h
    split at h
    · rename_i hwarmup
      split at h
      · cases h
      · rename_i periods hperiods
        dsimp only at h
        split at h
        · cases h
        · rename_i s hrun
          exact ⟨⟨_, head?_eq_get (Nat.zero_lt_of_lt hwarmup), periods, hperiods⟩, s, hwarmup, _,
            List.getLast?_eq_some_getLast _, hrun, _, List.getElem?_eq_getElem hwarmup, h⟩
    · cases h
  · rintro ⟨⟨first, hfirst, periods, hperiods⟩, s, hwarmup, last, hlast, hrun, entry, hentry,
      hreport⟩
    have hpos : 0 < candles.length := Nat.zero_lt_of_lt hwarmup
    have hhead : candles.get ⟨0, hpos⟩ = first := by
      rw [head?_eq_get hpos] at hfirst
      exact Option.some.inj hfirst
    have hend : candles.getLast (List.ne_nil_of_length_pos hpos) = last := by
      rw [List.getLast?_eq_some_getLast (List.ne_nil_of_length_pos hpos)] at hlast
      exact Option.some.inj hlast
    have hget : candles.get ⟨args.warmup, hwarmup⟩ = entry := by
      rw [List.getElem?_eq_getElem hwarmup] at hentry
      exact Option.some.inj hentry
    unfold simulatePositions
    rw [dif_pos hwarmup, hhead, hperiods, hget, hend]
    dsimp only
    rw [hrun]
    exact hreport

theorem reportOf_ok {m : BacktestMetrics} (h : simulatePositions args candles decide = .ok m) :
    ∃ s, ReportOf args candles decide m s :=
  (simulatePositions_ok_iff.mp h).2

/-- What the metrics are. -/
structure Reported (args : SimulationArgs) (m : BacktestMetrics) (s : SimulationState) : Prop where
  startingEquity : m.startingEquity = args.startingEquity
  endingEquity : m.endingEquity = s.equity
  totalReturn : m.totalReturn = s.equity / args.startingEquity - 1
  excessReturn : m.excessReturn = m.totalReturn - m.benchmarkReturn
  maxDrawdown : m.maxDrawdown = s.watermark.worst
  totalFees : m.totalFees = s.totalFees
  tradeLog : m.tradeLog = s.tradeLog
  trades : m.trades = s.tradeLog.length

theorem reported_of_report {s : SimulationState} {first last : Candle} {m : BacktestMetrics}
    (h : s.report args first last = .ok m) :
    Reported args m s ∧ m.benchmarkReturn = last.close / first.openPrice - 1 := by
  unfold report at h
  dsimp only at h
  split at h
  · cases h
    exact ⟨⟨rfl, rfl, rfl, rfl, rfl, rfl, rfl, rfl⟩, rfl⟩
  · cases h

/-- What the trade log of a backtest says of its equity. -/
structure LedgerIdentity (candles : List Candle) (m : BacktestMetrics) (s : SimulationState) :
    Prop where
  product : m.endingEquity / m.startingEquity
    = (m.tradeLog.map fun t => 1 + t.returnPct).prod
  fees : m.totalFees = (m.tradeLog.map BacktestTrade.feesPaid).sum
  /-- Every entry is followed by its exit, and no trade begins before the last one ended. -/
  rounds : ∃ rounds : List RoundTrip, rounds.map RoundTrip.trade = m.tradeLog ∧
    s.fills = rounds.flatMap RoundTrip.fills ∧ (∀ r ∈ rounds, r.Fits candles) ∧
    rounds.Pairwise fun r r' => r.exitBar ≤ r'.entryBar
  /-- So it is in time, where the bars are in order. -/
  times : candles.Pairwise (fun c c' => c.openedAt ≤ c'.openedAt) →
    (∀ t ∈ m.tradeLog, t.entryTime ≤ t.exitTime) ∧
    m.tradeLog.Pairwise fun t t' => t.exitTime ≤ t'.entryTime
  /-- The equity is positive after every bar, between a close and the entry that follows it
  at the same bar, and at the end. -/
  positive : (∀ x ∈ s.path, 0 < x) ∧ (∀ t ∈ m.tradeLog, 0 < t.notionalUsd) ∧ 0 < m.endingEquity

theorem openedAt_le (hsorted : candles.Pairwise fun c c' => c.openedAt ≤ c'.openedAt) {i j : ℕ}
    (hij : i ≤ j) {c c' : Candle} (hc : candles[i]? = some c) (hc' : candles[j]? = some c') :
    c.openedAt ≤ c'.openedAt := by
  obtain ⟨hi, rfl⟩ := List.getElem?_eq_some_iff.mp hc
  obtain ⟨hj, rfl⟩ := List.getElem?_eq_some_iff.mp hc'
  rcases hij.eq_or_lt with rfl | hlt
  · exact le_refl _
  · exact List.pairwise_iff_getElem.mp hsorted i j hi hj hlt

theorem ledgerIdentity_of_reportOf {m : BacktestMetrics} {s : SimulationState}
    (hcost : ∀ candle x, args.costBps candle x < 10000)
    (h : ReportOf args candles decide m s) : LedgerIdentity candles m s := by
  obtain ⟨last, hlast, hrun, first, -, hreport⟩ := h.run
  have hm := (reported_of_report hreport).1
  obtain ⟨hsettled, hnone⟩ := (keeps_settled hcost args.startingEquity).simulate h.warmup hlast
    (settled_start args.starting_pos) hrun
  have hempty : ∃ rounds openBar,
      SimulationState.Logged candles args.warmup (SimulationState.start args.startingEquity)
        rounds openBar :=
    ⟨[], 0, rfl, fun _ hr => absurd hr List.not_mem_nil, List.Pairwise.nil, rfl, of_mem_none⟩
  obtain ⟨⟨rounds, openBar, hlogged⟩, -⟩ := keeps_logged.simulate h.warmup hlast hempty hrun
  have hproduct := hsettled.product
  have hfees := hsettled.fees
  have hfills := hlogged.fills
  rw [hnone] at hproduct hfees hfills
  rw [Option.elim_none] at hproduct hfees hfills
  rw [add_zero] at hfees
  rw [List.append_nil] at hfills
  refine ⟨?_, ?_, ⟨rounds, ?_, hfills, fun r hr => (hlogged.fits r hr).1, hlogged.apart⟩, ?_, ?_⟩
  · rw [hm.endingEquity, hm.startingEquity, hm.tradeLog, hproduct]
    exact mul_div_cancel_left₀ _ args.starting_pos.ne'
  · rw [hm.totalFees, hm.tradeLog, hfees]
  · rw [hm.tradeLog, hlogged.trades]
  · intro hsorted
    rw [hm.tradeLog, ← hlogged.trades]
    constructor
    · intro t ht
      obtain ⟨r, hr, rfl⟩ := List.mem_map.mp ht
      obtain ⟨⟨c, hc, htime, -⟩, ⟨c', hc', htime', -⟩, hle⟩ := (hlogged.fits r hr).1
      rw [htime, htime']
      exact openedAt_le hsorted hle hc hc'
    · rw [List.pairwise_map]
      refine hlogged.apart.imp_of_mem fun {r r'} hr hr' hle => ?_
      obtain ⟨-, ⟨c, hc, htime, -⟩, -⟩ := (hlogged.fits r hr).1
      obtain ⟨⟨c', hc', htime', -⟩, -⟩ := (hlogged.fits r' hr').1
      rw [htime, htime']
      exact openedAt_le hsorted hle hc hc'
  · rw [hm.endingEquity, hm.tradeLog]
    exact ⟨hsettled.path_pos, hsettled.notionals_pos, hsettled.equity_pos⟩

/-- Every decision a simulation asks for comes. -/
def Decides (args : SimulationArgs) (candles : List Candle) (decide : PositionDecision) : Prop :=
  ∀ k, args.warmup < k → k < candles.length → ∃ d, decide (candles.take k) = .ok d

theorem simulatePositions_returns (hcosts : Charges args.costBps)
    (hwarmup : args.warmup < candles.length) (hinterval : HasInterval candles)
    (hdecides : Decides args candles decide) :
    ∃ m, simulatePositions args candles decide = .ok m := by
  have hne : candles ≠ [] := List.ne_nil_of_length_pos (Nat.zero_lt_of_lt hwarmup)
  have hlast := List.getLast?_eq_some_getLast hne
  have htake : (candles.take (args.warmup + 1)).length = args.warmup + 1 := by
    rw [List.length_take, min_eq_left hwarmup]
  obtain ⟨s, hbars, hsound⟩ := Sound.bars hcosts (candles.drop (args.warmup + 1))
    (candles.take (args.warmup + 1)) (SimulationState.start args.startingEquity)
    (List.take_append_drop _ _).symm (sound_start args.starting_pos)
    (fun k hk hlt => hdecides k (by rw [htake] at hk; exact hk) hlt)
  obtain ⟨s', hfinish⟩ := hsound.finish hcosts (candles.length - 1) (candles.getLast hne)
  have hrun : simulate args candles (candles.getLast hne) decide = .ok s' := by
    unfold simulate
    rw [hbars]
    exact hfinish
  have hsound' := ((keeps_sound hcosts).simulate hwarmup hlast (sound_start args.starting_pos)
    hrun).1
  obtain ⟨m, hreport⟩ := hsound'.report args candles[args.warmup] (candles.getLast hne)
  exact ⟨m, simulatePositions_ok_iff.mpr ⟨hinterval, s', hwarmup, _, hlast, hrun, _,
    List.getElem?_eq_getElem hwarmup, hreport⟩⟩

/-- What a backtest raises does not depend on its costs. -/
theorem simulatePositions_error {args' : SimulationArgs} (hcosts : Charges args.costBps)
    (hcosts' : Charges args'.costBps) (hsame : args'.warmup = args.warmup) {e : ResearchError}
    (h : simulatePositions args candles decide = .error e) :
    simulatePositions args' candles decide = .error e := by
  by_cases hwarmup : args.warmup < candles.length
  · have hwarmup' : args'.warmup < candles.length := by rw [hsame]; exact hwarmup
    have hlast := List.getLast?_eq_some_getLast
      (List.ne_nil_of_length_pos (Nat.zero_lt_of_lt hwarmup))
    unfold simulatePositions at h ⊢
    rw [dif_pos hwarmup] at h
    rw [dif_pos hwarmup']
    split at h
    · rename_i e' hperiods
      rw [hperiods]
      exact h
    · rename_i periods hperiods
      rw [hperiods]
      dsimp only at h ⊢
      split at h
      · rename_i e' hrun
        rw [simulate_error hcosts hcosts' hsame hrun]
        exact h
      · -- what was simulated is reported
        rename_i s hrun
        have hsound := ((keeps_sound hcosts).simulate hwarmup hlast (sound_start args.starting_pos)
          hrun).1
        obtain ⟨m, hreport⟩ := hsound.report args (candles.get ⟨args.warmup, hwarmup⟩)
          (candles.getLast _)
        rw [hreport] at h
        cases h
  · unfold simulatePositions at h ⊢
    rw [dif_neg hwarmup] at h
    rw [dif_neg (by rw [hsame]; exact hwarmup)]
    exact h

/-- **The ledger of a backtest adds up.** With costs under 100 % of a fill, whatever
backtest returns has an equity that is the product of its trades' returns, fees that
are the sum of theirs, and trades that are entered and left one after the other. It
returns where the costs are no gain and every decision comes. -/
theorem ledger_identity (args : SimulationArgs) (candles : List Candle)
    (decide : PositionDecision) (hwarmup : args.warmup < candles.length)
    (hcost : ∀ candle x, args.costBps candle x < 10000) :
    (∀ m, simulatePositions args candles decide = .ok m →
      ∃ s, ReportOf args candles decide m s ∧ LedgerIdentity candles m s) ∧
    (Charges args.costBps → HasInterval candles → Decides args candles decide →
      ∃ m, simulatePositions args candles decide = .ok m) := by
  refine ⟨fun m hm => ?_, fun hcosts => simulatePositions_returns hcosts hwarmup⟩
  obtain ⟨s, hs⟩ := reportOf_ok hm
  exact ⟨s, hs, ledgerIdentity_of_reportOf hcost hs⟩

end

/-! ### A position that falls and recovers -/

namespace Underwater

theorem fifty_pos : (0 : ℚ) < 50 := by norm_num

theorem hundred_pos : (0 : ℚ) < 100 := by norm_num

/-- A daily bar that opens and closes at two prices. -/
def bar (openedAt openPrice close : ℚ) (hopen : 0 < openPrice) (hclose : 0 < close) : Candle where
  symbol := "BTC/USD"
  interval := "1d"
  openedAt := openedAt
  openPrice := openPrice
  high := max openPrice close
  low := min openPrice close
  close := close
  volume := 1
  open_pos := hopen
  high_pos := lt_max_of_lt_left hopen
  low_pos := lt_min hopen hclose
  close_pos := hclose
  volume_nonneg := unit_nonneg
  high_contains := le_refl _
  low_contains := le_refl _

/-- From 100 down to 50, and back. -/
def candles : List Candle :=
  [bar 0 100 100 hundred_pos hundred_pos, bar 86400 100 50 hundred_pos fifty_pos,
    bar 172800 50 100 fifty_pos hundred_pos, bar 259200 100 100 hundred_pos hundred_pos]

/-- No warm-up, at a flat cost. -/
def args (feeBps : ℚ) : SimulationArgs :=
  ⟨10000, 0, flatCostBps feeBps 0, defaultRebalanceThreshold, Nat.cast_pos.mpr (by decide)⟩

/-- Always long. -/
def long : PositionDecision := fun _ => .ok ⟨1, .range, []⟩

end Underwater

theorem ledger_identity_underwater :
    ∃ m, simulatePositions (Underwater.args 10) Underwater.candles Underwater.long = .ok m ∧
      ∃ s, LedgerIdentity Underwater.candles m s := by
  have hcost : ∀ candle x, (Underwater.args 10).costBps candle x < 10000 := fun _ _ => by
    norm_num [Underwater.args, flatCostBps]
  have hledger := ledger_identity (Underwater.args 10) Underwater.candles Underwater.long
    (by decide) hcost
  have hreturns : (simulatePositions (Underwater.args 10) Underwater.candles
      Underwater.long).toOption.isSome = true := by decide +kernel
  cases hm : simulatePositions (Underwater.args 10) Underwater.candles Underwater.long with
  | error e =>
    rw [hm] at hreturns
    cases hreturns
  | ok m =>
    obtain ⟨s, -, hs⟩ := hledger.1 m hm
    exact ⟨m, rfl, s, hs⟩

end TraderStack
