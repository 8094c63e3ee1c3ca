import TraderStack.Research.RegimeVoter

/-!
# The on-chain regime gate at runtime (intelligence.py, pipeline.py, market/coinmetrics.py)

The rule of the overlay is coded a second time in the runtime: the provider takes the last point of
the series, the merge copies its percentile into the features, and the pipeline's gate compares it
with the threshold. The voter of the research looks the point up and drops it when it is more than
three days old; the runtime does not look at its day.

- `regime_gates_agree_iff`: **both gates decide alike unless the newest point is stale** and its
  percentile is at most the threshold.
-/

namespace TraderStack

open Lib

/-! ## The runtime path -/

/-- `OnChainSnapshot` (intelligence.py:16–21). -/
structure OnChainSnapshot where
  asset : String
  exchangeNetflowZ : Option ℚ
  largeWalletAccumulation : Option ℚ

/-- `OnChainFeatures` (features.py:25–37). -/
structure OnChainFeatures where
  exchangeNetflowZ : Option ℚ
  largeWalletAccumulation : Option ℚ
  mvrvZ : Option ℚ
  mvrvZPercentile : Option ℚ
  nupl : Option ℚ
  regimeAsOf : Option ℤ
  regimeVersion : Option String

/-- The on-chain features of `merge_external_intelligence` (intelligence.py:225–234). -/
def mergeOnchain (onchain : Option OnChainSnapshot) (regime : Option OnChainRegimeSnapshot) :
    OnChainFeatures where
  exchangeNetflowZ := onchain.bind OnChainSnapshot.exchangeNetflowZ
  largeWalletAccumulation := onchain.bind OnChainSnapshot.largeWalletAccumulation
  mvrvZ := regime.bind OnChainRegimeSnapshot.mvrvZ
  mvrvZPercentile := regime.bind OnChainRegimeSnapshot.mvrvZPercentile
  nupl := regime.bind OnChainRegimeSnapshot.nupl
  regimeAsOf := regime.map OnChainRegimeSnapshot.asOf
  regimeVersion := regime.map OnChainRegimeSnapshot.featureVersion

/-- A cycle whose intelligence about the tick's asset has these on-chain features; the rest of it
is `bundle`. -/
def MarketInput.withOnchain (i : MarketInput) (bundle : ExternalIntelligence)
    (features : OnChainFeatures) : MarketInput :=
  { i with
    intelligence := some
      { bundle with asset := i.tick.asset, mvrvZPercentile := features.mvrvZPercentile } }

/-- A pipeline with the gate on, at a threshold. -/
def VerticalSlicePipeline.gatedAt (p : VerticalSlicePipeline) (threshold : ℚ) :
    VerticalSlicePipeline :=
  { p with onchainRegimeGate := true, onchainRegimeMaxPercentile := threshold }

/-- What the runtime has besides the rows. -/
structure RuntimeContext where
  pipeline : VerticalSlicePipeline
  input : MarketInput
  bundle : ExternalIntelligence
  onchain : Option OnChainSnapshot
  sourceAsset : String
  observedAt : Time

/-- The runtime gate on a series: the snapshot of the series, or none if it is empty, merged, and
the pipeline's gate. -/
def RuntimeContext.rejects (ctx : RuntimeContext) (threshold : ℚ)
    (series : List OnChainRegimePoint) (side : Side) : Bool :=
  let snapshot := snapshotFromSeries series ctx.input.tick.asset ctx.sourceAsset ctx.observedAt
  let features := mergeOnchain ctx.onchain snapshot.toOption
  ((ctx.pipeline.gatedAt threshold).onchainRegimeRejection
    (ctx.input.withOnchain ctx.bundle features) side).isSome

/-- The series of the rows committed before the decision's UTC date
(coinmetrics.py:434–455). -/
def committedSeries (sqrt : ℚ → ℚ) (rows : List OnChainDailyRow) (decisionAt : Time) :
    Except RegimeError (List OnChainRegimePoint) :=
  deriveRegimeSeries (windowPstdev sqrt) onchainRegimeWindowDays onchainRegimeMinPoints
    (dropUncommittedRows rows (utcDate decisionAt))

/-- A voter under the percentile overlay (research/onchain_regime.py:277–305). -/
def gatedVoter (inner : Voter) (strategyId overlayId : String) (threshold : ℚ)
    (series : List OnChainRegimePoint) : OnChainRegimeGateVoter where
  inner := inner
  strategyId := strategyId
  overlayId := overlayId
  regimeField := "mvrv_z_percentile"
  threshold := threshold
  lookup := .fromSeries series onchainRegimeMaxStaleDays

/-! ## What either gate reads -/

/-- A gate that is on blocks a BUY without a percentile, or with one above its threshold. -/
theorem VerticalSlicePipeline.rejection_buy_iff {p : VerticalSlicePipeline} {i : MarketInput}
    (hgate : p.onchainRegimeGate = true) :
    (p.onchainRegimeRejection i .buy).isSome = true ↔
      ∀ x ∈ i.ownIntelligence.bind ExternalIntelligence.mvrvZPercentile,
        p.onchainRegimeMaxPercentile < x := by
  have hon : ¬ ((!p.onchainRegimeGate) = true ∨ Side.buy ≠ Side.buy) := by
    rw [hgate]
    decide
  rw [VerticalSlicePipeline.onchainRegimeRejection, if_neg hon]
  cases i.ownIntelligence.bind ExternalIntelligence.mvrvZPercentile with
  | none => exact iff_of_true rfl fun x h => absurd h (Option.not_mem_none x)
  | some x =>
    simp only [Option.mem_some_iff, forall_eq']
    by_cases habove : p.onchainRegimeMaxPercentile < x
    · rw [if_pos habove]
      exact iff_of_true rfl habove
    · rw [if_neg habove]
      exact iff_of_false Bool.false_ne_true habove

/-- The intelligence of the cycle is about its own asset. -/
theorem MarketInput.ownIntelligence_withOnchain (i : MarketInput) (bundle : ExternalIntelligence)
    (features : OnChainFeatures) : (i.withOnchain bundle features).ownIntelligence =
      some
        { bundle with asset := i.tick.asset, mvrvZPercentile := features.mvrvZPercentile } := by
  have hasset : Text.upper i.tick.asset = i.tick.asset := Text.upper_upper _
  exact Option.filter_eq_some_iff.mpr ⟨rfl, decide_eq_true hasset⟩

section

variable {ctx : RuntimeContext} {threshold : ℚ} {series : List OnChainRegimePoint}

/-- The percentile the runtime's gate reads is the one of the last point. -/
theorem percentile_merged (ctx : RuntimeContext) (series : List OnChainRegimePoint) :
    (mergeOnchain ctx.onchain (snapshotFromSeries series ctx.input.tick.asset ctx.sourceAsset
      ctx.observedAt).toOption).mvrvZPercentile =
        series.getLast?.bind OnChainRegimePoint.mvrvZPercentile := by
  unfold mergeOnchain snapshotFromSeries
  cases series.getLast? <;> rfl

/-- The runtime blocks a BUY if the last point has no percentile, or one above the threshold. -/
theorem rejects_buy_iff : ctx.rejects threshold series .buy = true ↔
    ∀ x ∈ series.getLast?.bind OnChainRegimePoint.mvrvZPercentile, threshold < x := by
  rw [RuntimeContext.rejects, VerticalSlicePipeline.rejection_buy_iff rfl,
    MarketInput.ownIntelligence_withOnchain, Option.bind_some, percentile_merged]
  rfl

/-- The runtime never blocks a SELL. -/
theorem not_rejects_sell : ctx.rejects threshold series .sell = false := by
  rw [RuntimeContext.rejects, VerticalSlicePipeline.onchainRegimeRejection,
    if_pos (.inr (by decide))]
  rfl

end

/-- A day before a date has begun before it. -/
theorem dayStart_lt_of_day_lt {point : OnChainRegimePoint} {decisionAt : Time}
    (h : point.day < utcDate decisionAt) : point.dayStart < decisionAt := by
  have hday : ((point.day + 1 : ℤ) : ℚ) ≤ decisionAt / 86400 := Int.le_floor.mp h
  rw [le_div_iff₀ (by norm_num), Int.cast_add, Int.cast_one] at hday
  rw [OnChainRegimePoint.dayStart]
  linarith

/-- The days of the committed series ascend and lie before the decision. -/
theorem committedSeries_days {sqrt : ℚ → ℚ} {rows : List OnChainDailyRow} {decisionAt : Time}
    {series : List OnChainRegimePoint} (h : committedSeries sqrt rows decisionAt = .ok series) :
    series.Pairwise (fun a b => a.day ≤ b.day) ∧
      ∀ point ∈ series, point.dayStart < decisionAt := by
  have hwindow : 0 < (onchainRegimeWindowDays : ℤ).toNat := by decide
  obtain rfl := Except.ok.inj h
  have hdays := map_day_pointsOf (windowPstdev sqrt) (onchainRegimeMinPoints : ℤ).toNat hwindow
    (orderedRows (dropUncommittedRows rows (utcDate decisionAt)))
  have hordered : (orderedRows (dropUncommittedRows rows (utcDate decisionAt))).Pairwise
      fun a b => a.day ≤ b.day := List.pairwise_insertionSort _ _
  constructor
  · have hpairwise := List.pairwise_map.mpr hordered
    rw [← hdays] at hpairwise
    exact List.pairwise_map.mp hpairwise
  · intro point hpoint
    have hday := List.mem_map_of_mem (f := OnChainRegimePoint.day) hpoint
    rw [hdays] at hday
    obtain ⟨row, hrow, heq⟩ := List.mem_map.mp hday
    have hcommitted := (perm_ranked _).mem_iff.mp hrow
    refine dayStart_lt_of_day_lt (heq ▸ ?_)
    exact of_decide_eq_true (List.mem_filter.mp hcommitted).2

/-! ## The two gates -/

section

variable (fixed3 general : ℚ → String) (ctx : RuntimeContext) (inner : Voter)
  (strategyId overlayId : String) (threshold : ℚ) (series : List OnChainRegimePoint)
  (earlier : List Candle) (bar : Candle) (regime : Regime)

/-- The side that the gated voter takes at a bar. -/
def gatedSide : Except ResearchError (Option Side) :=
  ((gatedVoter inner strategyId overlayId threshold series).evaluate fixed3 general
    (earlier ++ [bar]) regime).map StrategySignal.side

/-- The runtime gate is the researched one at a bar on which the inner voter buys: it rejects a BUY
exactly when the voter withholds it; both do when the newest row is stale; and neither ever blocks
a SELL. -/
structure GatesAgree : Prop where
  buy : ctx.rejects threshold series .buy = true ↔
    gatedSide fixed3 general inner strategyId overlayId threshold series earlier bar regime =
      .ok none
  stale : ∀ newest ∈ series.getLast?,
    onchainRegimeMaxStaleDays < utcDate bar.openedAt - newest.day →
      ctx.rejects threshold series .buy = true ∧
        gatedSide fixed3 general inner strategyId overlayId threshold series earlier bar regime =
          .ok none
  sell : ctx.rejects threshold series .sell = false ∧
    ∀ earlier' bar' regime' signal', inner.evaluate (earlier' ++ [bar']) regime' = .ok signal' →
      signal'.side = some .sell → gatedSide fixed3 general inner strategyId overlayId threshold
        series earlier' bar' regime' = .ok (some .sell)

/-- The newest point is recent enough, or its percentile does not admit a BUY. -/
def FreshOrClosed : Prop :=
  ∀ newest ∈ series.getLast?, utcDate bar.openedAt - newest.day ≤ onchainRegimeMaxStaleDays ∨
    ∀ x ∈ newest.mvrvZPercentile, threshold < x

variable {fixed3 general ctx inner strategyId overlayId threshold series earlier bar regime}

/-- The voter withholds a BUY unless the last point is recent and its percentile admits it. -/
theorem gatedSide_buy {signal : StrategySignal}
    (hdays : series.Pairwise fun a b => a.day ≤ b.day)
    (hbefore : ∀ point ∈ series, point.dayStart < bar.openedAt)
    (hinner : inner.evaluate (earlier ++ [bar]) regime = .ok signal)
    (hbuy : signal.side = some .buy) :
    gatedSide fixed3 general inner strategyId overlayId threshold series earlier bar regime =
        .ok none ↔
      ∀ newest ∈ series.getLast?,
        utcDate bar.openedAt - newest.day ≤ onchainRegimeMaxStaleDays →
          ∀ x ∈ newest.mvrvZPercentile, threshold < x := by
  have hvalue : (gatedVoter inner strategyId overlayId threshold series).lookup.valueBefore
      bar.openedAt "mvrv_z_percentile" = (series.getLast?.filter (OnChainRegimePoint.freshAt
        bar.openedAt onchainRegimeMaxStaleDays)).bind OnChainRegimePoint.mvrvZPercentile := by
    rw [gatedVoter, RegimeLookup.valueBefore, RegimeLookup.before_eq_getLast? hdays hbefore]
    rfl
  have hside : gatedSide fixed3 general inner strategyId overlayId threshold series earlier bar
      regime = .ok (if ∀ x ∈ (gatedVoter inner strategyId overlayId threshold
        series).lookup.valueBefore bar.openedAt "mvrv_z_percentile", threshold < x
          then none else some .buy) :=
    OnChainRegimeGateVoter.side_of_buy hinner hbuy
  rw [hvalue] at hside
  have hopen : (∀ x ∈ (series.getLast?.filter (OnChainRegimePoint.freshAt bar.openedAt
      onchainRegimeMaxStaleDays)).bind OnChainRegimePoint.mvrvZPercentile, threshold < x) ↔
      ∀ newest ∈ series.getLast?, utcDate bar.openedAt - newest.day ≤ onchainRegimeMaxStaleDays →
        ∀ x ∈ newest.mvrvZPercentile, threshold < x := by
    simp only [Option.mem_def, Option.bind_eq_some_iff, Option.filter_eq_some_iff,
      OnChainRegimePoint.freshAt, decide_eq_true_iff]
    exact ⟨fun h newest hnewest hfresh x hx => h x ⟨newest, ⟨hnewest, hfresh⟩, hx⟩,
      fun h x ⟨newest, ⟨hnewest, hfresh⟩, hx⟩ => h newest hnewest hfresh x hx⟩
  rw [hside, ← hopen]
  split
  · rename_i habove
    exact iff_of_true rfl habove
  · rename_i hadmits
    exact iff_of_false (fun h => nomatch Except.ok.inj h) hadmits

/-- A SELL of the inner voter passes. -/
theorem gatedSide_sell {signal : StrategySignal}
    (hinner : inner.evaluate (earlier ++ [bar]) regime = .ok signal)
    (hsell : signal.side = some .sell) :
    gatedSide fixed3 general inner strategyId overlayId threshold series earlier bar regime =
      .ok (some .sell) := by
  have hne : signal.side ≠ some .buy := by
    rw [hsell]
    decide
  have hside : gatedSide fixed3 general inner strategyId overlayId threshold series earlier bar
      regime = .ok signal.side := OnChainRegimeGateVoter.side_of_not_buy hinner hne
  rw [hside, hsell]

/-- **Both gates decide alike unless a stale point admits a BUY.** On every series of committed
rows and every bar on which the inner voter buys, the runtime gate agrees with the researched one
exactly when the newest point is at most three days old or its percentile does not admit a BUY. -/
theorem regime_gates_agree_iff {sqrt : ℚ → ℚ} {rows : List OnChainDailyRow}
    {signal : StrategySignal} (hseries : committedSeries sqrt rows bar.openedAt = .ok series)
    (hinner : inner.evaluate (earlier ++ [bar]) regime = .ok signal)
    (hbuy : signal.side = some .buy) :
    GatesAgree fixed3 general ctx inner strategyId overlayId threshold series earlier bar regime ↔
      FreshOrClosed threshold series bar := by
  obtain ⟨hdays, hbefore⟩ := committedSeries_days hseries
  have hresearch : gatedSide fixed3 general inner strategyId overlayId threshold series earlier bar
      regime = .ok none ↔ _ := gatedSide_buy hdays hbefore hinner hbuy
  have hruntime : ctx.rejects threshold series .buy = true ↔
      ∀ newest ∈ series.getLast?, ∀ x ∈ newest.mvrvZPercentile, threshold < x := by
    rw [rejects_buy_iff]
    simp only [Option.mem_def, Option.bind_eq_some_iff]
    exact ⟨fun h newest hnewest x hx => h x ⟨newest, hnewest, hx⟩,
      fun h x ⟨newest, hnewest, hx⟩ => h newest hnewest x hx⟩
  constructor
  · intro hagree newest hnewest
    by_cases hfresh : utcDate bar.openedAt - newest.day ≤ onchainRegimeMaxStaleDays
    · exact .inl hfresh
    · -- The voter withholds on a stale point, so the runtime rejects: by the percentile alone.
      have hstale := (hagree.stale newest hnewest (not_le.mp hfresh)).1
      exact .inr (hruntime.mp hstale newest hnewest)
  · intro hcond
    have hclosed : gatedSide fixed3 general inner strategyId overlayId threshold series earlier bar
        regime = .ok none → ctx.rejects threshold series .buy = true := by
      intro hwithheld
      refine hruntime.mpr fun newest hnewest => ?_
      rcases hcond newest hnewest with hfresh | habove
      · exact hresearch.mp hwithheld newest hnewest hfresh
      · exact habove
    have hopen : ctx.rejects threshold series .buy = true → gatedSide fixed3 general inner
        strategyId overlayId threshold series earlier bar regime = .ok none := fun hrejects =>
      hresearch.mpr fun newest hnewest _ => hruntime.mp hrejects newest hnewest
    refine ⟨⟨hopen, hclosed⟩, fun newest hnewest hstale => ?_, not_rejects_sell, ?_⟩
    · have hwithheld := hresearch.mpr fun other hother hfresh => by
        obtain rfl := Option.mem_unique hother hnewest
        exact absurd hfresh (not_le.mpr hstale)
      exact ⟨hclosed hwithheld, hwithheld⟩
    · exact fun _ _ _ _ hinner' hsell => gatedSide_sell hinner' hsell

end

/-! ## A provider that has stopped -/

/-! Four years of daily rows, none for the last eleven days. On the last row the cap is below the
realised one, so its MVRV-Z is the lowest of all. -/
namespace Outdated

theorem hundred_pos : (0 : ℚ) < 100 := by norm_num

/-- The square root, rounded down to twelve decimal places. -/
def sqrt (x : ℚ) : ℚ := (Nat.sqrt ⌊x * 10 ^ 24⌋₊ : ℚ) / 10 ^ 12

def mvrv (day : ℕ) : ℚ := if day = 1458 then 1 / 2 else 2

def cap (day : ℕ) : ℚ := if day = 0 then 1 else 3

theorem mvrv_pos (day : ℕ) : 0 < mvrv day := by
  unfold mvrv
  split <;> norm_num

theorem cap_pos (day : ℕ) : 0 < cap day := by
  unfold cap
  split <;> norm_num

def row (day : ℕ) : OnChainDailyRow := ⟨"btc", day, mvrv day, cap day, mvrv_pos day, cap_pos day⟩

def rows : List OnChainDailyRow := (List.range 1459).map row

def now : Time := 86400 * 1470

/-- A bar of a price of 100. -/
def bar : Candle where
  symbol := "BTC/USD"
  interval := "1d"
  openedAt := now
  openPrice := 100
  high := 100
  low := 100
  close := 100
  volume := 0
  open_pos := hundred_pos
  high_pos := hundred_pos
  low_pos := hundred_pos
  close_pos := hundred_pos
  volume_nonneg := zero_nonneg
  high_contains := (max_self 100).le
  low_contains := (min_self 100).ge

def buy : StrategySignal := ⟨"tsmom_lo_21", "BTC/USD", some .buy, 1, 1, .range, ""⟩

/-- A voter that buys. -/
def inner : Voter := ⟨"tsmom_lo_21", fun _ _ => .ok buy⟩

def context : RuntimeContext where
  pipeline :=
    { riskEngine := ⟨.default, none, none⟩, exits := .default, maxTickAgeSeconds := 10
      maxSpreadBps := 30, maxReferenceDivergenceBps := 100, demonstrationNotionalPct := 1 / 100
      pretradeGate := false, featureBuilder := none, defaultInterval := "1d"
      blockOnAdverseNews := true, requireExternalIntelligence := false, onchainRegimeGate := true
      onchainRegimeMaxPercentile := 9 / 10, promoteUniverse := none }
  input :=
    { tick := ⟨.kraken, "BTC/USD", now, 100, 100, 100, hundred_pos, hundred_pos, hundred_pos⟩
      references := [], candles := none, intelligence := none, now := now, decisionId := "d" }
  bundle := ⟨"BTC", false, true, false, none⟩
  onchain := none
  sourceAsset := "btc"
  observedAt := now

/-- The points of the rows. -/
def series : List OnChainRegimePoint := pointsOf (windowPstdev sqrt) 1460 730 rows

theorem orderedRows_rows : orderedRows rows = rows := by
  refine ranked_of_pairwise (List.pairwise_map.mpr ?_)
  exact List.pairwise_lt_range.imp fun h => Int.ofNat_le.mpr h.le

theorem committed : committedSeries sqrt rows now = .ok series := by
  have htoday : utcDate now = 1470 := by
    rw [utcDate, now, mul_div_cancel_left₀ _ (by norm_num)]
    exact Int.floor_ofNat 1470
  have hall : dropUncommittedRows rows (utcDate now) = rows := by
    refine List.filter_eq_self.mpr fun r hr => decide_eq_true ?_
    obtain ⟨day, hday, rfl⟩ := List.mem_map.mp hr
    have hlt := List.mem_range.mp hday
    rw [htoday]
    show (day : ℤ) < 1470
    omega
  rw [committedSeries, hall, deriveRegimeSeries, if_neg (by decide), orderedRows_rows]
  rfl

theorem sqrt_pos {x : ℚ} (h : 1 / 1460 ≤ x) : 0 < sqrt x := by
  have hfloor : 1 ≤ ⌊x * 10 ^ 24⌋₊ := by
    refine Nat.le_floor ?_
    rw [Nat.cast_one]
    linarith
  have hroot : 0 < Nat.sqrt ⌊x * 10 ^ 24⌋₊ := Nat.sqrt_pos.mpr hfloor
  exact div_pos (Nat.cast_pos.mpr hroot) (by norm_num)

/-- A window with caps of 1 and of 3 deviates. -/
theorem windowPstdev_pos {values : List ℚ} (hone : 1 ∈ values) (hthree : 3 ∈ values)
    (hlength : values.length ≤ 1460) : 0 < windowPstdev sqrt values := by
  have hpos : 0 < values.length := List.length_pos_of_mem hone
  set mean := values.sum / values.length
  have hsum : ∀ x ∈ values, (x - mean) ^ 2 ≤ (values.map fun item => (item - mean) ^ 2).sum := by
    intro x hx
    refine List.single_le_sum (fun y hy => ?_) _ (List.mem_map_of_mem hx)
    obtain ⟨item, -, rfl⟩ := List.mem_map.mp hy
    exact sq_nonneg _
  -- One of the two is at least one away from the mean.
  have hfar : 1 ≤ (values.map fun item => (item - mean) ^ 2).sum := by
    have h1 := hsum 1 hone
    have h3 := hsum 3 hthree
    nlinarith [sq_nonneg (mean - 2)]
  rw [windowPstdev, if_neg hpos.ne']
  refine sqrt_pos ?_
  rw [div_le_div_iff₀ (by norm_num) (Nat.cast_pos.mpr hpos), one_mul]
  have hcast : (values.length : ℚ) ≤ 1460 := by exact_mod_cast hlength
  nlinarith

/-- The window of the caps that ends with a row holds all caps up to it. -/
theorem caps_trailing {day : ℕ} (h : day < 1459) :
    (trailing 1460 (day + 1) rows).map OnChainDailyRow.marketCapUsd =
      (List.range (day + 1)).map cap := by
  have hstart : day + 1 - 1460 = 0 := by omega
  have hmin : min (day + 1) 1459 = day + 1 := by omega
  rw [trailing, hstart, List.drop_zero, rows, ← List.map_take, List.take_range, hmin, List.map_map]
  rfl

theorem deviation_pos {day : ℕ} (h : 1 ≤ day) (hlt : day < 1459) :
    0 < windowPstdev sqrt ((List.range (day + 1)).map cap) := by
  refine windowPstdev_pos (List.mem_map.mpr ⟨0, ?_, rfl⟩) (List.mem_map.mpr ⟨1, ?_, rfl⟩) ?_
  · exact List.mem_range.mpr (by omega)
  · exact List.mem_range.mpr (by omega)
  · rw [List.length_map, List.length_range]
    omega

/-- MVRV-Z of a row. -/
def zOf (day : ℕ) : Option ℚ := documentedZ (windowPstdev sqrt) 1460 730 rows day

theorem zOf_eq {day : ℕ} (hfrom : 729 ≤ day) (hlt : day < 1459) :
    zOf day = some (clip ((cap day - cap day / mvrv day) /
      windowPstdev sqrt ((List.range (day + 1)).map cap)) (-10) 10) := by
  have hrow : rows[day]? = some (row day) := by
    rw [rows, List.getElem?_map, List.getElem?_range hlt]
    rfl
  have henough : 730 ≤ ((List.range (day + 1)).map cap).length := by
    rw [List.length_map, List.length_range]
    omega
  rw [zOf, documentedZ, caps_trailing hlt, hrow]
  exact if_pos ⟨henough, deviation_pos (by omega) hlt⟩

/-- The last value is negative. -/
theorem exists_last : ∃ z, zOf 1458 = some z ∧ z < 0 := by
  refine ⟨_, zOf_eq (by omega) (by omega), max_lt (by norm_num) (min_lt_of_right_lt ?_)⟩
  refine div_neg_of_neg_of_pos ?_ (deviation_pos (by omega) (by omega))
  norm_num [cap, mvrv]

/-- The others are not. -/
theorem nonneg_of_zOf {day : ℕ} (h : day < 1458) {z : ℚ} (hz : zOf day = some z) : 0 ≤ z := by
  have hrow : rows[day]? = some (row day) := by
    rw [rows, List.getElem?_map, List.getElem?_range (by omega)]
    rfl
  rw [zOf, documentedZ, hrow, Option.bind_some] at hz
  split at hz
  · rename_i hdev
    obtain rfl := Option.some.inj hz
    refine le_max_of_le_right (le_min (by norm_num) (div_nonneg ?_ hdev.2.le))
    have hmvrv : mvrv day = 2 := if_neg h.ne
    show 0 ≤ cap day - cap day / mvrv day
    rw [hmvrv]
    linarith [cap_pos day]
  · cases hz

/-- There are enough defined values. -/
theorem enough : 729 ≤ ((List.range 1458).filterMap zOf).length := by
  have hcount : (List.range 1458).countP (fun day => 729 ≤ day) = 729 := by decide +kernel
  rw [List.length_filterMap_eq_countP, ← hcount]
  refine List.countP_mono_left fun day hday hfrom => ?_
  have hlt := List.mem_range.mp hday
  rw [zOf_eq (of_decide_eq_true hfrom) (by omega)]
  rfl

/-- The percentile of the last row is defined, and admits a BUY. -/
theorem percentile_last : ∃ x,
    documentedPercentile (windowPstdev sqrt) 1460 730 rows 1458 = some x ∧ x ≤ 9 / 10 := by
  obtain ⟨z, hz, hneg⟩ := exists_last
  have hzs : documentedZs (windowPstdev sqrt) 1460 730 rows 1458 =
      (List.range 1458).filterMap zOf ++ [z] := by
    have hall : trailing 1460 (1458 + 1) (List.range (1458 + 1)) = List.range 1458 ++ [1458] := by
      rw [trailing, List.take_of_length_le (List.length_range).le, List.range_succ]
      rfl
    have hof : documentedZ (windowPstdev sqrt) 1460 730 rows = zOf := rfl
    rw [documentedZs, hall, List.filterMap_append, hof, List.filterMap_cons_some hz,
      List.filterMap_nil]
  -- Only the last value is at most the last value.
  have hone :
      (documentedZs (windowPstdev sqrt) 1460 730 rows 1458).countP (fun x => x ≤ z) = 1 := by
    have hnone : ((List.range 1458).filterMap zOf).countP (fun x => x ≤ z) = 0 := by
      refine List.countP_eq_zero.mpr fun x hx => ?_
      obtain ⟨day, hday, hzday⟩ := List.mem_filterMap.mp hx
      have hnonneg := nonneg_of_zOf (List.mem_range.mp hday) hzday
      simpa using hneg.trans_le hnonneg
    rw [hzs, List.countP_append, hnone, List.countP_singleton, if_pos (decide_eq_true le_rfl)]
  have hlength : 730 ≤ (documentedZs (windowPstdev sqrt) 1460 730 rows 1458).length := by
    rw [hzs, List.length_append, List.length_singleton]
    have hothers := enough
    omega
  refine ⟨1 / (documentedZs (windowPstdev sqrt) 1460 730 rows 1458).length, ?_, ?_⟩
  · rw [documentedPercentile, show documentedZ _ _ _ _ _ = some z from hz, Option.bind_some,
      if_pos hlength, hone, Nat.cast_one]
  · have hcast : (730 : ℚ) ≤ (documentedZs (windowPstdev sqrt) 1460 730 rows 1458).length := by
      exact_mod_cast hlength
    rw [div_le_div_iff₀ (by linarith) (by norm_num)]
    linarith

/-- The last point: eleven days old, with a percentile that admits a BUY. -/
theorem last_point : ∃ newest x, series.getLast? = some newest ∧ newest.day = 1458 ∧
    newest.mvrvZPercentile = some x ∧ x ≤ 9 / 10 := by
  obtain ⟨x, hx, hle⟩ := percentile_last
  have hfollows := follows_foldl (windowPstdev sqrt) 730 (by decide : 0 < 1460) rows
  have hlength : series.length = 1459 := hfollows.length_eq.trans (by
    rw [rows, List.length_map, List.length_range])
  have hrow : rows[1458]? = some (row 1458) := by
    rw [rows, List.getElem?_map, List.getElem?_range (by omega)]
    rfl
  have hpoint := List.getElem?_eq_getElem (hlength ▸ (by decide) : 1458 < series.length)
  have hdoc := hfollows.documented 1458 _ _ hrow hpoint
  refine ⟨_, x, ?_, hdoc.day_eq, hdoc.percentile_eq.trans hx, hle⟩
  have hplace : series.length - 1 = 1458 := by omega
  rw [List.getLast?_eq_getElem?, hplace]
  exact hpoint

end Outdated

open Outdated in
/-- The provider has told nothing for eleven days, and the runtime lets a BUY pass that the voter
withholds. -/
theorem outdated_row_admits :
    (∃ series, committedSeries sqrt rows bar.openedAt = .ok series ∧
      context.rejects (9 / 10) series .buy = false ∧
      gatedSide toString toString inner "tsmom_lo_21__mvrvz_p90" "mvrvz_p90" (9 / 10) series [] bar
        .range = .ok none) ∧
    ¬ ∃ series, committedSeries sqrt rows bar.openedAt = .ok series ∧
      GatesAgree toString toString context inner "tsmom_lo_21__mvrvz_p90" "mvrvz_p90" (9 / 10)
        series [] bar .range := by
  obtain ⟨newest, x, hlast, hday, hx, hle⟩ := last_point
  obtain ⟨hdays, hbefore⟩ := committedSeries_days committed
  have hage : ¬ utcDate bar.openedAt - newest.day ≤ onchainRegimeMaxStaleDays := by
    rw [hday]
    decide +kernel
  have hadmits : context.rejects (9 / 10) series .buy = false := by
    refine Bool.eq_false_iff.mpr fun hrejects => ?_
    have hbind : x ∈ series.getLast?.bind OnChainRegimePoint.mvrvZPercentile := by
      rw [hlast]
      exact hx
    exact (rejects_buy_iff.mp hrejects x hbind).not_ge hle
  have hwithheld : gatedSide toString toString inner "tsmom_lo_21__mvrvz_p90" "mvrvz_p90" (9 / 10)
      series [] bar .range = .ok none := by
    refine (gatedSide_buy hdays hbefore rfl rfl).mpr fun other hother hfresh => ?_
    obtain rfl := Option.mem_unique hother hlast
    exact absurd hfresh hage
  refine ⟨⟨series, committed, hadmits, hwithheld⟩, ?_⟩
  rintro ⟨series', hseries, hagree⟩
  rw [show committedSeries sqrt rows bar.openedAt = .ok series from committed] at hseries
  obtain rfl := Except.ok.inj hseries
  rw [hagree.buy.mpr hwithheld] at hadmits
  cases hadmits

open Outdated in
/-- Without a row both gates are closed. -/
theorem regime_gates_agree_without_rows :
    GatesAgree toString toString context inner "tsmom_lo_21__mvrvz_p90" "mvrvz_p90" (9 / 10) []
      [] bar .range :=
  (regime_gates_agree_iff (show committedSeries sqrt [] bar.openedAt = .ok [] from rfl) rfl
    rfl).mpr fun newest h => absurd h (Option.not_mem_none newest)

end TraderStack
