import TraderStack.Market.OnchainRegime
import TraderStack.Research.Ensemble

/-!
# The on-chain regime overlay (research/onchain_regime.py)

The overlay wraps a voter and withholds its BUY when the newest regime point strictly before the
bar is above a threshold, missing or stale. The point is looked up by bisection in an index that is
sorted once, where `regime_point_before` scans the series.

- `before_eq_regimePointBefore`: both lookups find the same point;
- `regime_series_documented`: **the regime series equals its definition**, its first points are
  those of the first rows, and the lookups agree on it.
-/

namespace TraderStack

open Lib

/-! ## The lookup -/

/-- `RegimeLookup` (research/onchain_regime.py:180–187). -/
structure RegimeLookup where
  dayStarts : List Time
  points : List OnChainRegimePoint
  maxStaleDays : ℤ

/-- `getattr(point, field_name, None)`, if that is a float. -/
def OnChainRegimePoint.floatField (point : OnChainRegimePoint) : String → Option ℚ
  | "mvrv" => some point.mvrv
  | "market_cap_usd" => some point.marketCapUsd
  | "realized_cap_usd" => some point.realizedCapUsd
  | "nupl" => some point.nupl
  | "mvrv_z" => point.mvrvZ
  | "mvrv_z_percentile" => point.mvrvZPercentile
  | _ => none

namespace RegimeLookup

/-- `from_series` (research/onchain_regime.py:189–199). -/
def fromSeries (series : List OnChainRegimePoint) (maxStaleDays : ℤ) : RegimeLookup where
  dayStarts := (ranked OnChainRegimePoint.day series).map OnChainRegimePoint.dayStart
  points := ranked OnChainRegimePoint.day series
  maxStaleDays := maxStaleDays

/-- `before` (research/onchain_regime.py:201–211). -/
def before (lookup : RegimeLookup) (decisionAt : Time) : Option OnChainRegimePoint :=
  match bisectLeft lookup.dayStarts decisionAt with
  | 0 => none
  | index + 1 => lookup.points[index]?.filter
      (OnChainRegimePoint.freshAt decisionAt lookup.maxStaleDays)

/-- `value_before` (research/onchain_regime.py:213–218). -/
def valueBefore (lookup : RegimeLookup) (decisionAt : Time) (fieldName : String) : Option ℚ :=
  (lookup.before decisionAt).bind fun point => point.floatField fieldName

variable {series : List OnChainRegimePoint} {decisionAt : Time} {maxStaleDays : ℤ}

theorem dayStart_le_of_day_le {point other : OnChainRegimePoint} (h : point.day ≤ other.day) :
    point.dayStart ≤ other.dayStart :=
  mul_le_mul_of_nonneg_left (Int.cast_le.mpr h) (by norm_num)

theorem pairwise_day (series : List OnChainRegimePoint) :
    (ranked OnChainRegimePoint.day series).Pairwise fun a b => a.day ≤ b.day :=
  List.pairwise_insertionSort _ series

theorem pairwise_dayStarts (series : List OnChainRegimePoint) (maxStaleDays : ℤ) :
    (fromSeries series maxStaleDays).dayStarts.Pairwise (· ≤ ·) :=
  List.pairwise_map.mpr ((pairwise_day series).imp dayStart_le_of_day_le)

variable (maxStaleDays) in
/-- The points before the decision are those before the place the bisection finds. -/
theorem before_iff {index : ℕ} (h : index < (ranked OnChainRegimePoint.day series).length) :
    (ranked OnChainRegimePoint.day series)[index].dayStart < decisionAt ↔
      index < bisectLeft (fromSeries series maxStaleDays).dayStarts decisionAt := by
  have hstarts : index < (fromSeries series maxStaleDays).dayStarts.length := by
    rw [fromSeries, List.length_map]
    exact h
  rw [← getElem_lt_iff (pairwise_dayStarts series maxStaleDays) hstarts]
  simp only [fromSeries, List.getElem_map]

/-- Nothing lies before the first place. -/
theorem none_before (h : bisectLeft (fromSeries series maxStaleDays).dayStarts decisionAt = 0) :
    ∀ point ∈ series, ¬ point.dayStart < decisionAt := by
  intro point hpoint hbefore
  have hmem : point ∈ ranked OnChainRegimePoint.day series :=
    (perm_ranked series).mem_iff.mpr hpoint
  obtain ⟨index, hindex, rfl⟩ := List.mem_iff_getElem.mp hmem
  rw [before_iff maxStaleDays hindex, h] at hbefore
  exact Nat.not_lt_zero _ hbefore

/-- The point in front of any other place is the newest before the decision. -/
theorem isNewest_at {index : ℕ}
    (h : bisectLeft (fromSeries series maxStaleDays).dayStarts decisionAt = index + 1) :
    ∃ point, (ranked OnChainRegimePoint.day series)[index]? = some point ∧
      IsNewestBefore series decisionAt point := by
  have hle := bisectLeft_le_length (pairwise_dayStarts series maxStaleDays) decisionAt
  have hlength : (fromSeries series maxStaleDays).dayStarts.length =
      (ranked OnChainRegimePoint.day series).length := List.length_map _
  have hlt : index < (ranked OnChainRegimePoint.day series).length := by omega
  refine ⟨_, List.getElem?_eq_getElem hlt, ?_, ?_, fun other hother hbefore => ?_⟩
  · exact (perm_ranked series).mem_iff.mp (List.getElem_mem hlt)
  · rw [before_iff maxStaleDays hlt, h]
    exact Nat.lt_succ_self index
  · have hmem : other ∈ ranked OnChainRegimePoint.day series :=
      (perm_ranked series).mem_iff.mpr hother
    obtain ⟨place, hplace, rfl⟩ := List.mem_iff_getElem.mp hmem
    rw [before_iff maxStaleDays hplace, h] at hbefore
    rcases Nat.lt_succ_iff_lt_or_eq.mp hbefore with hearlier | rfl
    · exact List.pairwise_iff_getElem.mp (pairwise_day series) place index hplace hlt hearlier
    · exact le_rfl

/-- Where every point lies before the decision, the last one is looked up. -/
theorem before_eq_getLast? (hdays : series.Pairwise fun a b => a.day ≤ b.day)
    (hbefore : ∀ point ∈ series, point.dayStart < decisionAt) :
    (fromSeries series maxStaleDays).before decisionAt =
      series.getLast?.filter (OnChainRegimePoint.freshAt decisionAt maxStaleDays) := by
  have hranked : ranked OnChainRegimePoint.day series = series := ranked_of_pairwise hdays
  have hplace :
      bisectLeft (fromSeries series maxStaleDays).dayStarts decisionAt = series.length := by
    rw [bisectLeft_eq_countP (pairwise_dayStarts series maxStaleDays), fromSeries, hranked,
      List.countP_map, List.countP_eq_length.mpr]
    exact fun point hpoint => decide_eq_true (hbefore point hpoint)
  rw [before, hplace]
  show (match series.length with
    | 0 => none
    | index + 1 => ((ranked OnChainRegimePoint.day series)[index]?).filter _) = _
  rw [hranked]
  cases hlength : series.length with
  | zero =>
    rw [List.eq_nil_of_length_eq_zero hlength]
    rfl
  | succ index =>
    rw [List.getLast?_eq_getElem?, hlength, Nat.add_sub_cancel]
    rfl

/-- **The lookup by bisection finds what the scan finds.** -/
theorem before_eq_regimePointBefore (hdays : (series.map OnChainRegimePoint.day).Nodup) :
    (fromSeries series maxStaleDays).before decisionAt =
      regimePointBefore series decisionAt maxStaleDays := by
  obtain ⟨hsome, hnone⟩ := newest_foldl series decisionAt
  rw [before, regimePointBefore]
  cases hplace : bisectLeft (fromSeries series maxStaleDays).dayStarts decisionAt with
  | zero =>
    cases hscan : series.foldl (newestOf decisionAt) none with
    | none => rfl
    | some newest =>
      have hnewest := hsome newest hscan
      exact absurd hnewest.before (none_before hplace newest hnewest.mem)
  | succ index =>
    obtain ⟨point, hat, hpoint⟩ := isNewest_at hplace
    cases hscan : series.foldl (newestOf decisionAt) none with
    | none => exact absurd hpoint.before (hnone hscan point hpoint.mem)
    | some newest =>
      rw [(hsome newest hscan).unique hdays hpoint]
      show ((ranked OnChainRegimePoint.day series)[index]?).filter _ = _
      rw [hat]
      rfl

end RegimeLookup

/-! ## The voter -/

/-- `OnChainRegimeGateVoter` (research/onchain_regime.py:221–235). -/
structure OnChainRegimeGateVoter where
  inner : Voter
  strategyId : String
  overlayId : String
  regimeField : String
  threshold : ℚ
  lookup : RegimeLookup

namespace OnChainRegimeGateVoter

variable (fixed3 general : ℚ → String) (v : OnChainRegimeGateVoter)

/-- A BUY of the inner voter, withheld. -/
def withheld (signal : StrategySignal) (rationale : String) : StrategySignal :=
  { signal with
    strategyId := v.strategyId
    side := none
    score := 0
    confidence := 0
    rationale := rationale }

/-- `evaluate` (research/onchain_regime.py:237–269). The two formats are `:.3f` and `:g`. -/
def evaluate (candles : List Candle) (regime : Regime) : Except ResearchError StrategySignal :=
  match v.inner.evaluate candles regime with
  | .error error => .error error
  | .ok signal =>
    if signal.side ≠ some .buy then .ok { signal with strategyId := v.strategyId }
    else
      match candles.getLast? with
      | none => .error (.fatal "IndexError")
      | some bar =>
        match v.lookup.valueBefore bar.openedAt v.regimeField with
        | none =>
          .ok (v.withheld signal (v.overlayId ++ ": no committed " ++ v.regimeField
            ++ " strictly before the bar (or stale) → BUY withheld"))
        | some value =>
          if v.threshold < value then
            .ok (v.withheld signal (v.overlayId ++ ": " ++ v.regimeField ++ "=" ++ fixed3 value
              ++ " > " ++ general v.threshold ++ " → BUY withheld"))
          else .ok { signal with strategyId := v.strategyId }

variable {fixed3 general v} {earlier : List Candle} {bar : Candle} {regime : Regime}
  {signal : StrategySignal}

/-- **What becomes of a BUY**: it is withheld if there is no value, or one above the threshold. -/
theorem side_of_buy (hinner : v.inner.evaluate (earlier ++ [bar]) regime = .ok signal)
    (hbuy : signal.side = some .buy) :
    (v.evaluate fixed3 general (earlier ++ [bar]) regime).map StrategySignal.side =
      .ok (if ∀ value ∈ v.lookup.valueBefore bar.openedAt v.regimeField, v.threshold < value
        then none else some .buy) := by
  have hlast : (earlier ++ [bar]).getLast? = some bar := List.getLast?_concat
  rw [evaluate, hinner]
  dsimp only
  rw [if_neg fun h => h hbuy, hlast]
  dsimp only
  cases hvalue : v.lookup.valueBefore bar.openedAt v.regimeField with
  | none =>
    rw [if_pos fun value h => absurd h (Option.not_mem_none value)]
    rfl
  | some value =>
    simp only [Option.mem_some_iff, forall_eq']
    split
    · rfl
    · exact congrArg Except.ok hbuy

/-- Everything else keeps its side. -/
theorem side_of_not_buy {candles : List Candle}
    (hinner : v.inner.evaluate candles regime = .ok signal) (hside : signal.side ≠ some .buy) :
    (v.evaluate fixed3 general candles regime).map StrategySignal.side = .ok signal.side := by
  rw [evaluate, hinner]
  dsimp only
  rw [if_pos hside]
  rfl

end OnChainRegimeGateVoter

/-! ## The series -/

section

variable (pstdev : List ℚ → ℚ) {windowDays minPoints : ℤ} {rows : List OnChainDailyRow}

/-- **The regime series equals its definition.** For rows of distinct days in any order, every
point has the values documented for its row; rows of the first days, in any order, give the first
points; and both lookups find the same point of the series, for every decision and bound. -/
theorem regime_series_documented (hw : 0 < windowDays) (hm : 0 < minPoints)
    (hdays : (rows.map OnChainDailyRow.day).Nodup) :
    ∃ series, deriveRegimeSeries pstdev windowDays minPoints rows = .ok series ∧
      series.length = rows.length ∧
      (∀ i row, (orderedRows rows)[i]? = some row → ∃ point, series[i]? = some point ∧
        Documented pstdev windowDays.toNat minPoints.toNat (orderedRows rows) i row point) ∧
      (∀ k rows', rows'.Perm ((orderedRows rows).take k) →
        deriveRegimeSeries pstdev windowDays minPoints rows' = .ok (series.take k)) ∧
      ∀ series', series'.Perm series → ∀ decisionAt maxStaleDays,
        (RegimeLookup.fromSeries series' maxStaleDays).before decisionAt =
          regimePointBefore series' decisionAt maxStaleDays := by
  have hpos : 0 < windowDays.toNat := Int.pos_iff_toNat_pos.mp hw
  have hargs : ¬ (windowDays ≤ 0 ∨ minPoints ≤ 0) := by omega
  have hfollows := follows_foldl pstdev minPoints.toNat hpos (orderedRows rows)
  have hlength := length_pointsOf pstdev minPoints.toNat hpos (orderedRows rows)
  have hordered : (orderedRows rows).Perm rows := perm_ranked rows
  refine ⟨_, if_neg hargs, hlength.trans hordered.length_eq, ?_, ?_, ?_⟩
  · intro i row hrow
    obtain ⟨hi, -⟩ := List.getElem?_eq_some_iff.mp hrow
    have hpoint := List.getElem?_eq_getElem (hlength ▸ hi)
    exact ⟨_, hpoint, hfollows.documented i row _ hrow hpoint⟩
  · intro k rows' hperm
    rw [deriveRegimeSeries, if_neg hargs, orderedRows_of_perm_take hdays hperm, pointsOf_take hpos]
  · intro series' hperm decisionAt maxStaleDays
    refine RegimeLookup.before_eq_regimePointBefore ?_
    rw [(hperm.map _).nodup_iff, map_day_pointsOf _ _ hpos, (hordered.map _).nodup_iff]
    exact hdays

end

/-! Three days, told out of order, and windows of two rows. -/
namespace Unsorted

theorem mvrv_pos : (0 : ℚ) < 2 := two_pos

theorem cap_pos (cap : ℕ) : (0 : ℚ) < cap + 1 := by positivity

/-- A row with half of its cap realised. -/
def row (day : ℤ) (cap : ℕ) : OnChainDailyRow := ⟨"btc", day, 2, cap + 1, mvrv_pos, cap_pos cap⟩

def rows : List OnChainDailyRow := [row 3 7, row 1 3, row 2 3]

/-- The standard deviation of at most two caps. -/
def pstdev : List ℚ → ℚ
  | [a, b] => |a - b| / 2
  | _ => 0

end Unsorted

open Unsorted in
theorem regime_series_documented_unsorted :
    ∃ series, deriveRegimeSeries pstdev 2 1 rows = .ok series ∧ series.length = 3 := by
  obtain ⟨series, hseries, hlength, -⟩ := regime_series_documented pstdev (by decide : (0 : ℤ) < 2)
    (by decide : (0 : ℤ) < 1) (by decide : (rows.map OnChainDailyRow.day).Nodup)
  exact ⟨series, hseries, hlength⟩

open Unsorted in
example : (pointsOf pstdev 2 1 (orderedRows rows)).map OnChainRegimePoint.mvrvZPercentile =
    [none, none, some 1] := by decide +kernel

end TraderStack
