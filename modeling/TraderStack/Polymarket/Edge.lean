import TraderStack.Polymarket.Tape

/-!
# Weather contracts: probability and settlement (polymarket/edge.py, eval.py)

A day's contracts split the whole degrees Fahrenheit into "a or below", inclusive buckets and
"b or higher". The model gives a contract the mass of a half-open interval, the settlement
compares a station's reading with the closed one. The normal CDF is a parameter.

- `modelProbability_eq`: the probability of a contract whose terms are complete;
- `sum_massAbove`: the probabilities of the contracts above a degree telescope;
- `countP_covers`: of the half-open intervals exactly one covers a reading;
- `ladder_coherent_iff`: **model and settlement agree** exactly for the readings that do not lie
  strictly between the upper bound of a contract and the next degree.
-/

namespace TraderStack

/-! ## The model's side -/

/-- `ContractSide`. -/
inductive ContractSide where
  | yes
  | no
deriving DecidableEq, Repr

/-- The terms of a `ParsedTemperatureMarket`. -/
structure ParsedTemperatureMarket where
  contract : TemperatureContract
  thresholdF : Option ℚ
  bucketLowF : Option ℚ
  bucketHighF : Option ℚ
deriving DecidableEq

/-- `ForecastPoint`. -/
structure ForecastPoint where
  highF : ℚ
  sigmaF : ℚ
  sigmaF_pos : 0 < sigmaF

/-- `_clip01`. -/
def clip01 (value : ℚ) : ℚ := min 1 (max 0 value)

/-- `model_probability` (edge.py:30–54). -/
def modelProbability (normalCdf : ℚ → ℚ) (market : ParsedTemperatureMarket)
    (forecast : ForecastPoint) : Except String ℚ :=
  if forecast.sigmaF ≤ 0 then .error "forecast sigma_f must be > 0"
  else
    let mean := forecast.highF
    let sigma := forecast.sigmaF
    match market.contract with
    | .thresholdOrHigher =>
      match market.thresholdF with
      | none => .error "threshold contract missing threshold_f"
      | some threshold => .ok (clip01 (1 - normalCdf ((threshold - mean) / sigma)))
    | .thresholdOrLower =>
      match market.thresholdF with
      | none => .error "threshold contract missing threshold_f"
      | some threshold => .ok (clip01 (normalCdf ((threshold + 1 - mean) / sigma)))
    | .bucket =>
      match market.bucketLowF, market.bucketHighF with
      | some low, some high =>
        let zLow := (low - mean) / sigma
        let zHigh := (high + 1 - mean) / sigma
        .ok (clip01 (normalCdf zHigh - normalCdf zLow))
      | _, _ => .error "bucket contract missing bounds"

/-- `EdgeCalculation`, which is built from checked values only. -/
structure EdgeCalculation where
  modelProbability : ℚ
  marketMid : ℚ
  rawEdge : ℚ
  netEdge : ℚ
  side : ContractSide
  feeHaircut : ℚ

/-- `calculate_edge` (edge.py:57–83). -/
def calculateEdge (normalCdf : ℚ → ℚ) (market : ParsedTemperatureMarket)
    (forecast : ForecastPoint) (marketMid feeHaircut : ℚ) : Except String EdgeCalculation :=
  if ¬(0 ≤ marketMid ∧ marketMid ≤ 1) then
    .error "market_mid must be a probability-like price in [0, 1]"
  else if ¬(0 ≤ feeHaircut ∧ feeHaircut < 1) then
    .error "fee_haircut must be in [0, 1)"
  else do
    let model ← modelProbability normalCdf market forecast
    let raw := model - marketMid
    if 0 ≤ raw then
      return ⟨model, marketMid, raw, raw - feeHaircut, .yes, feeHaircut⟩
    else
      return ⟨model, marketMid, raw, -raw - feeHaircut, .no, feeHaircut⟩

/-! ## The settlement's side -/

/-- A mid is a price in `[0, 1]`. -/
def IsPrice (p : ℚ) : Prop := 0 ≤ p ∧ p ≤ 1

/-- `half_spread` is absent or in `[0, 1)`. -/
def IsHalfSpread (s : Option ℚ) : Prop := ∀ h ∈ s, 0 ≤ h ∧ h < 1

/-- `ResolvedWeatherRow` (eval.py:93–114): a market's terms, what was forecast, what was quoted
and what the station read. -/
structure ResolvedWeatherRow extends ParsedTemperatureMarket where
  marketId : String
  citySlug : String
  eventDate : ℤ
  forecastHighF : ℚ
  forecastIssuedAt : Time
  marketMid : ℚ
  halfSpread : Option ℚ
  officialHighF : Option ℚ
  stationId : Option String
  yesResolved : Option Bool
  closeAt : Time
  marketMid_price : IsPrice marketMid
  halfSpread_bounds : IsHalfSpread halfSpread

/-- `_as_market`. -/
def ResolvedWeatherRow.asMarket (row : ResolvedWeatherRow) : ParsedTemperatureMarket :=
  row.toParsedTemperatureMarket

/-- `yes_won` (eval.py:199–216). -/
def yesWon (row : ResolvedWeatherRow) : Option Bool :=
  match row.yesResolved with
  | some resolved => some resolved
  | none =>
    match row.officialHighF with
    | none => none
    | some high =>
      match row.contract with
      | .thresholdOrHigher => row.thresholdF.map fun threshold => decide (threshold ≤ high)
      | .thresholdOrLower => row.thresholdF.map fun threshold => decide (high ≤ threshold)
      | .bucket =>
        match row.bucketLowF, row.bucketHighF with
        | some low, some top => some (decide (low ≤ high ∧ high ≤ top))
        | _, _ => none

/-! ## A day's contracts -/

namespace ParsedTemperatureMarket

/-- "`threshold` or higher". -/
def orHigher (threshold : ℤ) : ParsedTemperatureMarket :=
  ⟨.thresholdOrHigher, some threshold, none, none⟩

/-- "`threshold` or below". -/
def orLower (threshold : ℤ) : ParsedTemperatureMarket :=
  ⟨.thresholdOrLower, some threshold, none, none⟩

/-- "`low` to `high`", both included. -/
def between (low high : ℤ) : ParsedTemperatureMarket := ⟨.bucket, none, some low, some high⟩

/-- The event whose mass the model takes: whole degrees as intervals that are open above. -/
def Covers (market : ParsedTemperatureMarket) (t : ℚ) : Prop :=
  match market.contract with
  | .thresholdOrHigher => ∀ threshold ∈ market.thresholdF, threshold ≤ t
  | .thresholdOrLower => ∀ threshold ∈ market.thresholdF, t < threshold + 1
  | .bucket => (∀ low ∈ market.bucketLowF, low ≤ t) ∧ ∀ high ∈ market.bucketHighF, t < high + 1

end ParsedTemperatureMarket

open ParsedTemperatureMarket

/-- A partition of the whole degrees: the threshold of the lowest contract and the upper bounds
of the buckets, upwards. -/
structure TemperatureLadder where
  lowest : ℤ
  tops : List ℤ
  increasing : (lowest :: tops).Pairwise (· < ·)

namespace TemperatureLadder

/-- The contracts above a degree. -/
def contractsAbove : ℤ → List ℤ → List ParsedTemperatureMarket
  | bound, [] => [orHigher (bound + 1)]
  | bound, top :: tops => between (bound + 1) top :: contractsAbove top tops

/-- The contracts of the day. -/
def contracts (l : TemperatureLadder) : List ParsedTemperatureMarket :=
  orLower l.lowest :: contractsAbove l.lowest l.tops

end TemperatureLadder

/-! ## Probabilities telescope -/

theorem clip01_of_isPrice {p : ℚ} (h : IsPrice p) : clip01 p = p := by
  rw [clip01, max_eq_right h.1, min_eq_right h.2]

section Model

variable (normalCdf : ℚ → ℚ) (forecast : ForecastPoint)

/-- The mass below a reading. -/
def massBelow (t : ℚ) : ℚ := normalCdf ((t - forecast.highF) / forecast.sigmaF)

/-- The probability the model gives a contract, 0 where it gives none. -/
def massOf (market : ParsedTemperatureMarket) : ℚ :=
  match modelProbability normalCdf market forecast with
  | .ok p => p
  | .error _ => 0

variable {normalCdf}

theorem massBelow_mono (hmono : Monotone normalCdf) : Monotone (massBelow normalCdf forecast) := by
  intro s t hst
  have hpos := forecast.sigmaF_pos
  exact hmono (by gcongr)

variable (hmono : Monotone normalCdf) (hunit : ∀ z, IsPrice (normalCdf z))
include hunit

theorem modelProbability_orHigher (threshold : ℤ) :
    modelProbability normalCdf (orHigher threshold) forecast =
      .ok (1 - massBelow normalCdf forecast threshold) := by
  have hunit := hunit ((threshold - forecast.highF) / forecast.sigmaF)
  rw [modelProbability, if_neg (not_le.mpr forecast.sigmaF_pos)]
  simp only [orHigher, massBelow]
  rw [clip01_of_isPrice ⟨by linarith [hunit.2], by linarith [hunit.1]⟩]

theorem modelProbability_orLower (threshold : ℤ) :
    modelProbability normalCdf (orLower threshold) forecast =
      .ok (massBelow normalCdf forecast (threshold + 1)) := by
  rw [modelProbability, if_neg (not_le.mpr forecast.sigmaF_pos)]
  simp only [orLower, massBelow]
  rw [clip01_of_isPrice (hunit _)]

include hmono

theorem modelProbability_between (low high : ℤ) (h : low ≤ high) :
    modelProbability normalCdf (between low high) forecast =
      .ok (massBelow normalCdf forecast (high + 1) - massBelow normalCdf forecast low) := by
  have hle : massBelow normalCdf forecast low ≤ massBelow normalCdf forecast (high + 1) :=
    massBelow_mono forecast hmono (by exact_mod_cast (by omega : low ≤ high + 1))
  have hlow : 0 ≤ massBelow normalCdf forecast low := (hunit _).1
  have hhigh : massBelow normalCdf forecast (high + 1) ≤ 1 := (hunit _).2
  have hprice : IsPrice (massBelow normalCdf forecast (high + 1) -
      massBelow normalCdf forecast low) := ⟨sub_nonneg.mpr hle, by linarith⟩
  rw [modelProbability, if_neg (not_le.mpr forecast.sigmaF_pos)]
  exact congrArg Except.ok (clip01_of_isPrice hprice)

/-- The contracts above a degree all have a probability, and these add up to the mass above it. -/
theorem sum_massAbove (bound : ℤ) (tops : List ℤ) (h : (bound :: tops).Pairwise (· < ·)) :
    (∀ c ∈ TemperatureLadder.contractsAbove bound tops,
      modelProbability normalCdf c forecast = .ok (massOf normalCdf forecast c)) ∧
    ((TemperatureLadder.contractsAbove bound tops).map (massOf normalCdf forecast)).sum =
      1 - massBelow normalCdf forecast (bound + 1) := by
  induction tops generalizing bound with
  | nil =>
    have hlast := modelProbability_orHigher forecast hunit (bound + 1)
    have hmass : massOf normalCdf forecast (orHigher (bound + 1)) =
        1 - massBelow normalCdf forecast (bound + 1) := by
      rw [massOf, hlast]
      push_cast
      rfl
    simp only [TemperatureLadder.contractsAbove, List.map_cons, List.map_nil, List.sum_cons,
      List.sum_nil, List.forall_mem_cons, hmass, add_zero]
    refine ⟨⟨?_, by simp⟩, trivial⟩
    rw [hlast]
    push_cast
    rfl
  | cons top tops ih =>
    have hlt : bound < top := (List.pairwise_cons.mp h).1 top List.mem_cons_self
    have hbucket := modelProbability_between forecast hmono hunit (bound + 1) top (by omega)
    have hmass : massOf normalCdf forecast (between (bound + 1) top) =
        massBelow normalCdf forecast (top + 1) - massBelow normalCdf forecast (bound + 1) := by
      rw [massOf, hbucket]
      push_cast
      rfl
    obtain ⟨hall, hsum⟩ := ih top (List.pairwise_cons.mp h).2
    simp only [TemperatureLadder.contractsAbove, List.map_cons, List.sum_cons,
      List.forall_mem_cons, hsum, hmass]
    refine ⟨⟨?_, hall⟩, by ring⟩
    rw [hbucket]
    push_cast
    rfl

/-- The model's probabilities of a day's contracts add up to one. -/
theorem sum_massOf (l : TemperatureLadder) :
    (∀ c ∈ l.contracts, modelProbability normalCdf c forecast = .ok (massOf normalCdf forecast c)) ∧
      (l.contracts.map (massOf normalCdf forecast)).sum = 1 := by
  obtain ⟨hall, hsum⟩ := sum_massAbove forecast hmono hunit l.lowest l.tops l.increasing
  have hlow := modelProbability_orLower forecast hunit l.lowest
  have hmass : massOf normalCdf forecast (orLower l.lowest) =
      massBelow normalCdf forecast (l.lowest + 1) := by
    rw [massOf, hlow]
  simp only [TemperatureLadder.contracts, List.map_cons, List.sum_cons, List.forall_mem_cons,
    hsum, hmass]
  exact ⟨⟨hlow, hall⟩, by ring⟩

end Model

/-! ## Settlements -/

/-- A row that settles a contract of the day by the station's reading. -/
def ResolvedWeatherRow.on (row : ResolvedWeatherRow) (market : ParsedTemperatureMarket) :
    ResolvedWeatherRow :=
  { row with toParsedTemperatureMarket := market }

/-- A reading strictly between a contract's upper bound and the next degree. -/
def InGap (top : ℤ) (reading : ℚ) : Prop := (top : ℚ) < reading ∧ reading < top + 1

instance (top : ℤ) (reading : ℚ) : Decidable (InGap top reading) :=
  inferInstanceAs (Decidable (_ ∧ _))

/-- A reading below an upper bound is below every later gap. -/
theorem not_inGap_of_le {bound : ℤ} {tops : List ℤ} {reading : ℚ}
    (h : (bound :: tops).Pairwise (· < ·)) (hle : reading ≤ bound) :
    ∀ t ∈ bound :: tops, ¬InGap t reading := by
  intro t ht hgap
  rcases List.mem_cons.mp ht with rfl | ht
  · exact absurd hgap.1 (not_lt.mpr hle)
  · have hbelow : (bound : ℚ) < t := by exact_mod_cast (List.pairwise_cons.mp h).1 t ht
    linarith [hgap.1]

theorem not_inGap_iff {top : ℤ} {reading : ℚ} (h : (top : ℚ) < reading) :
    ¬InGap top reading ↔ (top : ℚ) + 1 ≤ reading := by
  rw [InGap, not_and, not_lt]
  exact ⟨fun hgap => hgap h, fun hle _ => hle⟩

theorem le_iff_of_not_inGap {top : ℤ} {reading : ℚ} (h : ¬InGap top reading) :
    reading ≤ top ↔ reading < top + 1 := by
  refine ⟨fun hle => by linarith, fun hlt => ?_⟩
  by_contra hgt
  exact h ⟨not_le.mp hgt, hlt⟩

section Settle

variable {row : ResolvedWeatherRow} {reading : ℚ} (hopen : row.yesResolved = none)
  (hread : row.officialHighF = some reading)
include hopen hread

theorem yesWon_orHigher (threshold : ℤ) :
    yesWon (row.on (orHigher threshold)) = some true ↔ threshold ≤ reading := by
  simp [yesWon, ResolvedWeatherRow.on, orHigher, hopen, hread]

theorem yesWon_orLower (threshold : ℤ) :
    yesWon (row.on (orLower threshold)) = some true ↔ reading ≤ threshold := by
  simp [yesWon, ResolvedWeatherRow.on, orLower, hopen, hread]

theorem yesWon_between (low high : ℤ) :
    yesWon (row.on (between low high)) = some true ↔ low ≤ reading ∧ reading ≤ high := by
  simp [yesWon, ResolvedWeatherRow.on, between, hopen, hread]

/-- Above a degree a contract wins exactly when the reading is at least the next degree and in no
gap; and then only one does. -/
theorem countP_yesWon_above (bound : ℤ) (tops : List ℤ) (h : (bound :: tops).Pairwise (· < ·)) :
    (TemperatureLadder.contractsAbove bound tops).countP (fun c => yesWon (row.on c) = some true) =
      if (bound : ℚ) + 1 ≤ reading ∧ ∀ top ∈ tops, ¬InGap top reading then 1 else 0 := by
  induction tops generalizing bound with
  | nil =>
    simp [TemperatureLadder.contractsAbove, yesWon_orHigher hopen hread]
  | cons top tops ih =>
    obtain ⟨hbound, htail⟩ := List.pairwise_cons.mp h
    have hlt : (bound : ℚ) + 1 ≤ top := by exact_mod_cast hbound top List.mem_cons_self
    rw [TemperatureLadder.contractsAbove, List.countP_cons, ih top htail]
    simp only [decide_eq_true_eq, yesWon_between hopen hread, List.forall_mem_cons]
    push_cast
    by_cases hlow : (bound : ℚ) + 1 ≤ reading
    · by_cases hhigh : reading ≤ top
      · have hgaps := not_inGap_of_le htail hhigh
        rw [if_neg (by rintro ⟨habove, -⟩; linarith), if_pos ⟨hlow, hhigh⟩,
          if_pos ⟨hlow, List.forall_mem_cons.mp hgaps⟩]
      · have hgap := not_inGap_iff (not_le.mp hhigh)
        simp only [hlow, hhigh, hgap, true_and, and_false, if_false, add_zero]
    · rw [if_neg (by rintro ⟨habove, -⟩; linarith), if_neg (fun h => hlow h.1),
        if_neg (fun h => hlow h.1)]

/-- Exactly one contract of the day wins unless the reading lies in a gap. -/
theorem countP_yesWon (l : TemperatureLadder) :
    l.contracts.countP (fun c => yesWon (row.on c) = some true) =
      if ∀ top ∈ l.lowest :: l.tops, ¬InGap top reading then 1 else 0 := by
  rw [TemperatureLadder.contracts, List.countP_cons,
    countP_yesWon_above hopen hread _ _ l.increasing]
  simp only [decide_eq_true_eq, yesWon_orLower hopen hread, List.forall_mem_cons]
  by_cases hlow : reading ≤ l.lowest
  · have hgaps := not_inGap_of_le l.increasing hlow
    rw [if_neg (by rintro ⟨habove, -⟩; linarith), if_pos hlow,
      if_pos (List.forall_mem_cons.mp hgaps)]
  · have hgap := not_inGap_iff (not_le.mp hlow)
    simp only [hlow, hgap, if_false, add_zero]

/-- Above a degree, away from the gaps, a contract wins exactly on the event the model measures. -/
theorem yesWon_above_iff (bound : ℤ) (tops : List ℤ) (h : ∀ top ∈ tops, ¬InGap top reading) :
    ∀ c ∈ TemperatureLadder.contractsAbove bound tops,
      yesWon (row.on c) = some true ↔ c.Covers reading := by
  induction tops generalizing bound with
  | nil =>
    simp only [TemperatureLadder.contractsAbove, List.mem_singleton, forall_eq]
    rw [yesWon_orHigher hopen hread]
    simp only [Covers, orHigher, Option.mem_def, Option.some.injEq, forall_eq']
  | cons top tops ih =>
    obtain ⟨htop, htops⟩ := List.forall_mem_cons.mp h
    rw [TemperatureLadder.contractsAbove, List.forall_mem_cons]
    refine ⟨?_, ih top htops⟩
    rw [yesWon_between hopen hread]
    simp only [Covers, between, Option.mem_def, Option.some.injEq, forall_eq']
    exact and_congr_right fun _ => (le_iff_of_not_inGap htop)

/-- Away from the gaps, a contract of the day wins exactly on the event the model measures. -/
theorem yesWon_iff_covers (l : TemperatureLadder)
    (h : ∀ top ∈ l.lowest :: l.tops, ¬InGap top reading) :
    ∀ c ∈ l.contracts, yesWon (row.on c) = some true ↔ c.Covers reading := by
  obtain ⟨hlowest, htops⟩ := List.forall_mem_cons.mp h
  rw [TemperatureLadder.contracts, List.forall_mem_cons]
  refine ⟨?_, yesWon_above_iff hopen hread _ _ htops⟩
  rw [yesWon_orLower hopen hread]
  simp only [Covers, orLower, Option.mem_def, Option.some.injEq, forall_eq']
  exact le_iff_of_not_inGap hlowest

end Settle

/-! ## Between two degrees -/

namespace HalfDegree

/-- "77 or below", "78 to 79", "80 or higher". -/
def ladder : TemperatureLadder := ⟨77, [79], by decide⟩

theorem price : IsPrice (1 / 2) := ⟨by norm_num, by norm_num⟩

theorem halfSpread : IsHalfSpread none := by
  intro h hh
  cases hh

/-- A row whose station read the given value. -/
def row (reading : ℚ) : ResolvedWeatherRow :=
  ⟨⟨.thresholdOrHigher, none, none, none⟩, "m", "miami", 0, 78, 0, 1 / 2, none, some reading,
    some "KMIA", none, 1, price, halfSpread⟩

/-- A distribution function with one step. -/
def step (z : ℚ) : ℚ := if z < 0 then 0 else 1

theorem step_mono : Monotone step := by
  intro a b hab
  unfold step
  split_ifs with ha hb hb
  · exact le_rfl
  · exact zero_le_one
  · exact absurd (hab.trans_lt hb) ha
  · exact le_rfl

theorem step_isPrice (z : ℚ) : IsPrice (step z) := by
  unfold step IsPrice
  split_ifs <;> norm_num

def forecast : ForecastPoint := ⟨78, 3, by norm_num⟩

end HalfDegree

open HalfDegree in
/-- The station read 77.5: no contract of the day wins. -/
theorem half_degree_settles_nothing :
    (ladder.contracts.map (massOf step forecast)).sum = 1 ∧
      ladder.contracts.map (fun c => yesWon ((row (155 / 2)).on c)) =
        [some false, some false, some false] ∧
      ladder.contracts.countP (fun c => yesWon ((row (155 / 2)).on c) = some true) ≠ 1 := by
  decide +kernel

/-- **Model and settlement agree**: the probabilities of a day's contracts add up to one, exactly
one contract wins, and it wins on the event whose mass the model took. This holds exactly for the
readings that do not lie strictly between a contract's upper bound and the next degree. -/
theorem ladder_coherent_iff (normalCdf : ℚ → ℚ) (hmono : Monotone normalCdf)
    (hunit : ∀ z, IsPrice (normalCdf z)) (forecast : ForecastPoint) (l : TemperatureLadder)
    (row : ResolvedWeatherRow) (reading : ℚ) (hopen : row.yesResolved = none)
    (hread : row.officialHighF = some reading) :
    ((∃ p : ParsedTemperatureMarket → ℚ,
        (∀ c ∈ l.contracts, modelProbability normalCdf (row.on c).asMarket forecast = .ok (p c)) ∧
          (l.contracts.map p).sum = 1) ∧
      l.contracts.countP (fun c => yesWon (row.on c) = some true) = 1 ∧
      ∀ c ∈ l.contracts, yesWon (row.on c) = some true ↔ c.Covers reading) ↔
    ∀ top ∈ l.lowest :: l.tops, ¬InGap top reading := by
  constructor
  · rintro ⟨-, hone, -⟩
    by_contra hgap
    rw [countP_yesWon hopen hread, if_neg hgap] at hone
    exact absurd hone zero_ne_one
  · intro h
    refine ⟨⟨massOf normalCdf forecast, sum_massOf forecast hmono hunit l⟩, ?_,
      yesWon_iff_covers hopen hread l h⟩
    rw [countP_yesWon hopen hread, if_pos h]

open HalfDegree in
/-- At a whole degree the three contracts are settled as the model sees them. -/
theorem ladder_coherent_whole :
    ladder.contracts.countP (fun c => yesWon ((row 79).on c) = some true) = 1 :=
  ((ladder_coherent_iff step step_mono step_isPrice forecast ladder (row 79) 79 rfl rfl).mpr
    (by decide +kernel)).2.1

end TraderStack
