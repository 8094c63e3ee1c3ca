import TraderStack.Research.FundingCarry

/-!
# What the carry promotion bar asks for

The rules of the funding carry search say that a pin requires two prints, the hard gates, a
basis and a paper-executable path. The bar that `run_funding_carry` computes asks whether the
hard gates could be evaluated, and for a candidate that is eligible on both prints, which the
means over BTC and ETH decide. No verdict of a gate enters it.

- `can_promote_iff`, `mem_passers_iff`: what the bar asks for, and of whom;
- `eth_of_eligible96`, `not_assetSign_idle`: an asset that earns no rate fails the first gate;
- `promotion_clears_iff`: when a promotion means that the gates were cleared.
-/

namespace TraderStack

open Lib

/-! ## The bar -/

/-- The bar apart from its candidates: two usable daily prints, each with its basis, and enough
aligned bars that the gates could be evaluated. -/
structure MeetsBar (args : CarryRunArgs) (pair : PrintPair) : Prop where
  daily : args.interval = "1d"
  primary_usable : pair.primary.usable = true
  second_usable : pair.second.usable = true
  primary_bars : hardGateMinDailyBars ≤ pair.primaryBars
  second_bars : hardGateMinDailyBars ≤ pair.secondBars
  primary_basis : pair.primary.hasBasis = true
  second_basis : pair.second.hasBasis = true

/-- A candidate that is eligible on both prints as they are scored. -/
def EligibleOnBoth (args : CarryRunArgs) (spotSearch : SpotSearch) (pair : PrintPair)
    (id : String) : Prop :=
  ∃ search secondSearch,
    pair.primarySearch args spotSearch = .ok search ∧
      pair.secondSearch args spotSearch = .ok secondSearch ∧
      id ∈ eligibleIds search (pair.primaryCarry args) ∧
      id ∈ eligibleIds secondSearch (pair.secondCarry args)

section

variable {args : CarryRunArgs} {spotSearch : SpotSearch} {pair : PrintPair}
  {search secondSearch : Option SpotReport}

theorem MeetsBar.dual (h : MeetsBar args pair) : pair.dual = true := by
  rw [PrintPair.dual, h.primary_usable, h.second_usable]
  rfl

theorem meetsBar_iff :
    MeetsBar args pair ↔
      pair.dual = true ∧ pair.gatesOk args.interval = true ∧ pair.basisOk = true := by
  unfold PrintPair.dual PrintPair.gatesOk hardGatesAvailable PrintPair.basisOk PrintPair.dual
  constructor
  · rintro ⟨hdaily, hprimary, hsecond, hbars, hbars', hbasis, hbasis'⟩
    rw [hprimary, hsecond, hbasis, hbasis']
    refine ⟨rfl, ?_, rfl⟩
    rw [if_neg (by simpa [hdaily] using hbars)]
    simpa using hbars'
  · rintro ⟨hdual, hgates, hbasis⟩
    obtain ⟨hprimary, hsecond⟩ := Bool.and_eq_true_iff.mp hdual
    rw [hprimary, hsecond] at hbasis
    rw [hsecond, if_pos rfl] at hgates
    split at hgates
    · cases hgates
    next hshort =>
      obtain ⟨hdaily, hbars⟩ := not_or.mp hshort
      obtain ⟨hbasis, hbasis'⟩ := Bool.and_eq_true_iff.mp hbasis
      exact ⟨not_not.mp hdaily, hprimary, hsecond, not_lt.mp hbars, by simpa using hgates,
        hbasis, by simpa using hbasis'⟩

/-- **The passers** are the ids that are eligible on both prints. -/
theorem mem_passers_iff (hdual : pair.dual = true) {id : String} :
    id ∈ pair.passers args search secondSearch ↔
      id ∈ eligibleIds search (pair.primaryCarry args) ∧
        id ∈ eligibleIds secondSearch (pair.secondCarry args) := by
  unfold PrintPair.passers
  rw [if_pos hdual, List.mem_insertionSort, List.mem_dedup, List.mem_filter,
    List.contains_iff_mem]

variable (args pair search secondSearch) in
theorem dualPrintPasserIds_report :
    (pair.report args search secondSearch).dualPrintPasserIds
      = pair.passers args search secondSearch := rfl

/-- **The promotion bar**: it is met, and there is a passer. -/
theorem can_promote_iff :
    (pair.report args search secondSearch).canPromote = true ↔
      MeetsBar args pair ∧ pair.passers args search secondSearch ≠ [] := by
  rw [meetsBar_iff]
  simp [PrintPair.report, paperCarryPathReady, and_assoc]

end

/-! ## Clearing the gates -/

/-- A basis is applied to every series that is scored. -/
def BasisApplied (print : CarryPrint) : Prop :=
  ∀ symbol ∈ print.symbols,
    ((basisFor symbol print.basis print.basisBySymbol).any fun b => !b.isEmpty) = true

/-- A candidate clears the gates on a print: #96, A, B and C for a carry candidate. How a spot
candidate is judged is `spotClears`; no code evaluates the gates for one. -/
def ClearsGates (args : CarryRunArgs) (spotClears : CarryPrint → String → Prop)
    (print : CarryPrint) (id : String) : Prop :=
  (∃ candidate ∈ carryCatalog, candidate.candidateId = id ∧
      (print.gates args candidate).eligible96 = some true ∧
      (print.gates args candidate).gateA = some true ∧
      (print.gates args candidate).gateB = some true ∧
      (print.gates args candidate).gateC = some true) ∨
    (id ∉ carryCatalog.map (·.candidateId) ∧ spotClears print id)

/-- A candidate clears the gates on both prints, with a basis applied on both. -/
structure ClearsOnBoth (args : CarryRunArgs) (spotClears : CarryPrint → String → Prop)
    (pair : PrintPair) (id : String) : Prop where
  primary : ClearsGates args spotClears pair.primary id
  second : ClearsGates args spotClears pair.second id
  primary_basis : BasisApplied pair.primary
  second_basis : BasisApplied pair.second

/-! ## Eligible candidates -/

theorem means_scoreCandidate (args : CarryRunArgs) (sizes : WalkSizes) (print : CarryPrint)
    (candidate : CarryCandidate) :
    (print.scoreCandidate args sizes candidate).meanWfTotalReturn
        = meanOption ((print.scoreCandidate args sizes candidate).perAsset.filterMap
            fun e => e.2.meanWfTotalReturn) ∧
      (print.scoreCandidate args sizes candidate).meanHoldoutTotalReturn
        = meanOption ((print.scoreCandidate args sizes candidate).perAsset.filterMap
            fun e => e.2.meanHoldoutTotalReturn) :=
  ⟨rfl, rfl⟩

/-- A candidate is eligible when both of its means are positive. -/
theorem eligible_scoreCandidate_iff {args : CarryRunArgs} {sizes : WalkSizes} {print : CarryPrint}
    {candidate : CarryCandidate} :
    (print.scoreCandidate args sizes candidate).eligible = true ↔
      clearsFloor 0 (print.scoreCandidate args sizes candidate).meanWfTotalReturn = true ∧
        clearsFloor 0 (print.scoreCandidate args sizes candidate).meanHoldoutTotalReturn
          = true := by
  unfold CarryPrint.scoreCandidate
  simp

/-- The mean of a gain and of no loss is a gain. -/
theorem clearsFloor_mean {β : Type} (f : β → Option ℚ) {x y : β} (hx : assetSign (f x) = true)
    (hy : f y = some 0 ∨ assetSign (f y) = true) :
    clearsFloor 0 (meanOption ([x, y].filterMap f)) = true := by
  have hgain : ∀ {z : Option ℚ}, assetSign z = true → ∃ v, z = some v ∧ 0 < v := by
    intro z hz
    cases z with
    | none => cases hz
    | some v => exact ⟨v, rfl, by simpa [assetSign] using hz⟩
  obtain ⟨v, hfx, hv⟩ := hgain hx
  obtain ⟨w, hfy, hw⟩ : ∃ w, f y = some w ∧ 0 ≤ w := by
    rcases hy with hy | hy
    · exact ⟨0, hy, le_rfl⟩
    · obtain ⟨w, hfy, hw⟩ := hgain hy
      exact ⟨w, hfy, hw.le⟩
  have hmean : 0 < (v + w) / 2 := by linarith
  simpa [clearsFloor, meanOption, hfx, hfy] using hmean

/-! ## Always in the market -/

/-- While nothing tells it to leave and no basis is seen, a held position collects each rate. -/
theorem prints_held {args : CarryArgs} {basis : Dict Time ℚ} {series : Tape}
    (habs : args.absThreshold = none) (hz : args.zThreshold = none)
    (hbasis : ∀ e ∈ series, basis.get? (utcDayOpen e.1) = none) {history : List ℚ}
    (hhistory : history ≠ []) {s : CarryState} (hs : s.position = true) :
    (s.prints args basis history series).perPrint = s.perPrint ++ series.map fun e => |e.2| := by
  induction series generalizing history s with
  | nil => simp [CarryState.prints]
  | cons print rest ih =>
    rw [List.forall_mem_cons] at hbasis
    have hwant : wantHarvest args.sqrt args.absThreshold args.zThreshold history = true := by
      have hlast := List.getLast?_eq_some_getLast hhistory
      unfold wantHarvest
      rw [hlast, habs, hz]
      rfl
    have hleg : (basisLeg s.prevBasis none).1 = 0 := by cases s.prevBasis <;> rfl
    have hnet : (s.print args basis history print).perPrint = s.perPrint ++ [|print.2|] := by
      unfold CarryState.print
      rw [hwant, hs, hbasis.1]
      simp [hleg]
    have hposition : (s.print args basis history print).position = true := by
      rw [CarryState.position_print, hwant]
    rw [CarryState.prints, ih hbasis.2 (by simp) hposition, hnet, List.append_assoc, List.map_cons,
      List.singleton_append]

/-- **A harvest without thresholds** pays once to enter, at its second print. -/
theorem perPrint_always {args : CarryArgs} {basis : Option Tape} {first print : Time × ℚ}
    {rest : Tape} (habs : args.absThreshold = none) (hz : args.zThreshold = none)
    (hbasis : ∀ e ∈ print :: rest, (basisByTs basis).get? (utcDayOpen e.1) = none) :
    (hedgedCarryPerPrint args basis (first :: print :: rest)).1
      = 0 :: (|print.2| - args.cost) :: rest.map fun e => |e.2| := by
  rw [List.forall_mem_cons] at hbasis
  have hsecond : wantHarvest args.sqrt args.absThreshold args.zThreshold [first.2] = true := by
    rw [habs, hz]
    rfl
  have hfirst : CarryState.start.print args (basisByTs basis) [] first
      = ⟨false, 0, 0, none, [0]⟩ := by
    unfold CarryState.print
    simp [wantHarvest, CarryState.start]
  have hnext : (⟨false, 0, 0, none, [0]⟩ : CarryState).print args (basisByTs basis) [first.2] print
      = ⟨true, 1, 0, none, [0, |print.2| - args.cost]⟩ := by
    unfold CarryState.print
    rw [hsecond, hbasis.1]
    simp [basisLeg]
  show (CarryState.start.prints args (basisByTs basis) [] (first :: print :: rest)).perPrint = _
  rw [CarryState.prints, CarryState.prints, hfirst, List.nil_append, hnext,
    prints_held habs hz hbasis.2 (by simp) rfl]
  rfl

/-! ## What the first gate asks of ETH -/

/-- **The first gate** asks the ETH series for a positive holdout total. -/
theorem eth_of_eligible96 {args : CarryArgs} {holdoutFraction : ℚ}
    {fundingBySymbol : Option TapeMap} {basis : Option Tape} {basisBySymbol : Option TapeMap}
    (h : (evaluateCarryHardGates args holdoutFraction fundingBySymbol basis
      basisBySymbol).eligible96 = some true) :
    ∃ eth, lookupSeries fundingBySymbol "ETH/USD" = some eth ∧
      assetSign (scoreHedgedCarry args holdoutFraction (WalkSizes.default 31) 1
        (basisFor "ETH/USD" basis basisBySymbol) eth).meanHoldoutTotalReturn = true := by
  unfold evaluateCarryHardGates at h
  split at h
  · split at h
    next btc eth _ heth =>
      dsimp only at h
      by_cases hpoints : min btc.length eth.length < hardGateMinDailyBars
      · rw [if_pos hpoints] at h
        cases h
      · rw [if_neg hpoints] at h
        have hboth := Option.some.inj h
        unfold bothPositive at hboth
        rw [Bool.and_eq_true, Bool.and_eq_true, Bool.and_eq_true] at hboth
        exact ⟨eth, heth, hboth.2.2⟩
    next => cases h
  · cases h

/-- Two assets with the same scores clear every gate if the one does. -/
theorem gatesOf_twin {points : ℕ} {scores : AssetScores}
    (hbase : assetSign scores.base.meanWfTotalReturn = true ∧
      assetSign scores.base.meanHoldoutTotalReturn = true)
    (hstress : assetSign scores.stress.meanWfTotalReturn = true ∧
      assetSign scores.stress.meanHoldoutTotalReturn = true)
    (hwindows : multiwindowMinPasses ≤ windowPasses scores.prints scores.prints) :
    (gatesOf points scores scores).eligible96 = some true ∧
      (gatesOf points scores scores).gateA = some true ∧
      (gatesOf points scores scores).gateB = some true ∧
      (gatesOf points scores scores).gateC = some true := by
  have hratio : (magnitudeRatio scores.base scores.base).any
      (fun r => decide (magnitudeRatioMin ≤ r)) = true := by
    obtain ⟨-, hholdout⟩ := hbase
    unfold magnitudeRatio
    cases hb : scores.base.meanHoldoutTotalReturn with
    | none =>
      rw [hb] at hholdout
      cases hholdout
    | some b =>
      rw [hb] at hholdout
      have hpos : 0 < b := by simpa [assetSign] using hholdout
      dsimp only
      rw [if_pos ⟨hpos, hpos⟩, min_self, max_self, div_self hpos.ne']
      exact decide_eq_true (by norm_num [magnitudeRatioMin])
  have hboth : ∀ metrics : CarryMetrics, assetSign metrics.meanWfTotalReturn = true ∧
      assetSign metrics.meanHoldoutTotalReturn = true → bothPositive metrics metrics = true := by
    intro metrics h
    rw [bothPositive, h.1, h.2]
    rfl
  unfold gatesOf
  dsimp only
  rw [hboth _ hbase, hratio, hboth _ hstress, decide_eq_true hwindows]
  exact ⟨rfl, rfl, rfl, rfl⟩

theorem assetScores_eq (args : CarryArgs) (holdoutFraction : ℚ) (basis : Option Tape)
    (series : Tape) :
    (assetScores args holdoutFraction basis series).base
        = scoreHedgedCarry args holdoutFraction (WalkSizes.default 31) 1 basis series ∧
      (assetScores args holdoutFraction basis series).stress
        = scoreHedgedCarry args.stressed holdoutFraction (WalkSizes.default 31) 1 basis series ∧
      (assetScores args holdoutFraction basis series).prints
        = (hedgedCarryPerPrint args basis series).1 :=
  ⟨rfl, rfl, rfl⟩

/-! ## An asset that earns nothing -/

/-- What a print of a harvest without rates or basis moves can be. -/
theorem mem_perPrint_idle {args : CarryArgs} {basis : Dict Time ℚ} {series : Tape}
    (hrates : ∀ e ∈ series, e.2 = 0) (hbasis : ∀ e ∈ series, basis.get? (utcDayOpen e.1) = none)
    {history : List ℚ} {s : CarryState} (hs : ∀ net ∈ s.perPrint, net = 0 ∨ net = -args.cost) :
    ∀ net ∈ (s.prints args basis history series).perPrint, net = 0 ∨ net = -args.cost := by
  induction series generalizing history s with
  | nil => exact hs
  | cons print rest ih =>
    rw [List.forall_mem_cons] at hrates hbasis
    refine ih hrates.2 hbasis.2 ?_
    intro net hnet
    unfold CarryState.print at hnet
    generalize wantHarvest args.sqrt args.absThreshold args.zThreshold history = want at hnet
    have hleg : (basisLeg s.prevBasis none).1 = 0 := by cases s.prevBasis <;> rfl
    dsimp only at hnet
    rw [hrates.1, hbasis.1] at hnet
    by_cases hflip : (want != s.position) = true
    · rw [hflip] at hnet
      cases want <;> simp [hleg] at hnet <;> exact hnet.elim (hs net) Or.inr
    · rw [Bool.not_eq_true] at hflip
      rw [hflip] at hnet
      cases want <;> simp [hleg] at hnet <;> exact hnet.elim (hs net) Or.inl

theorem compound_nonpos {cost : ℚ} (h0 : 0 ≤ cost) (h1 : cost ≤ 1) {nets : List ℚ}
    (h : ∀ net ∈ nets, net = 0 ∨ net = -cost) : compound nets ≤ 0 := by
  have hprod : 0 ≤ (nets.map fun item => 1 + item).prod ∧
      (nets.map fun item => 1 + item).prod ≤ 1 := by
    induction nets with
    | nil => simp
    | cons net nets ih =>
      rw [List.forall_mem_cons] at h
      obtain ⟨hlow, hhigh⟩ := ih h.2
      have hnet : 0 ≤ 1 + net ∧ 1 + net ≤ 1 := by
        rcases h.1 with rfl | rfl
        · norm_num
        · constructor <;> linarith
      rw [List.map_cons, List.prod_cons]
      exact ⟨mul_nonneg hnet.1 hlow, mul_le_one₀ hnet.2 hlow hhigh⟩
  rw [compound]
  linarith [hprod.2]

/-- **An asset that earns nothing** has no positive holdout total. -/
theorem not_assetSign_idle {args : CarryArgs} {holdoutFraction : ℚ} {sizes : WalkSizes}
    {minTrades : ℕ} {basis : Option Tape} {series : Tape} (h0 : 0 ≤ args.cost)
    (h1 : args.cost ≤ 1) (hrates : ∀ e ∈ series, e.2 = 0)
    (hbasis : ∀ e ∈ series, (basisByTs basis).get? (utcDayOpen e.1) = none) :
    assetSign
      (scoreHedgedCarry args holdoutFraction sizes minTrades basis series).meanHoldoutTotalReturn
        = false := by
  have hnets : ∀ net ∈ (hedgedCarryPerPrint args basis series).1, net = 0 ∨ net = -args.cost :=
    mem_perPrint_idle hrates hbasis (by simp [CarryState.start])
  by_cases hshort : 2 ≤ (hedgedCarryPerPrint args basis series).1.length
  · rw [meanHoldout_score hshort]
    split
    · rfl
    · have htotal : compound
          (splitPrints holdoutFraction (hedgedCarryPerPrint args basis series).1).2 ≤ 0 :=
        compound_nonpos h0 h1 fun net hnet => hnets net (List.mem_of_mem_drop hnet)
      simpa [assetSign] using htotal
  · unfold scoreHedgedCarry
    dsimp only
    rw [if_pos (not_le.mp hshort)]
    rfl

/-! ## A promotion without its gates -/

namespace Lopsided

theorem one_pos : (0 : ℚ) < 1 := by norm_num

def bar (symbol : String) (day : ℕ) : Candle where
  symbol := symbol
  interval := "1d"
  openedAt := 86400 * day
  openPrice := 1
  high := 1
  low := 1
  close := 1
  volume := 1
  open_pos := one_pos
  high_pos := one_pos
  low_pos := one_pos
  close_pos := one_pos
  volume_nonneg := unit_nonneg
  high_contains := unit_high
  low_contains := unit_low

/-- Flat bars on days 1 to 720. -/
def bars (symbol : String) : List Candle := (List.range' 1 720).map (bar symbol)

/-- The same rate on each of the days. -/
def tape (rate : ℚ) : Tape := (List.range' 1 720).map fun day : ℕ => (86400 * (day : ℚ), rate)

/-- A basis of the day before. -/
def basis : Tape := [(0, 1 / 1000)]

def histories : Histories :=
  Dict.ofList [("BTC/USD@1d", bars "BTC/USD"), ("ETH/USD@1d", bars "ETH/USD")]

/-- BTC pays one rate every day, and ETH another. -/
def print (btc eth : ℚ) : CarryPrint where
  histories := histories
  funding := none
  fundingBySymbol := some (Dict.ofList [("BTC/USD", tape btc), ("ETH/USD", tape eth)])
  basis := none
  basisBySymbol := some (Dict.ofList [("BTC/USD", basis), ("ETH/USD", basis)])

/-- Two venues on which BTC pays three and four basis points, and ETH nothing. -/
def pair : PrintPair := ⟨print (3 / 10000) 0, print (4 / 10000) 0⟩

def args : CarryRunArgs where
  sqrt := fun _ => 0
  feeBps := 10
  slippageBps := 5
  startingEquity := 10000
  sizes := WalkSizes.default 31
  holdoutFraction := 1 / 5
  minTrades := 3
  interval := "1d"

/-- No spot candidate trades on flat bars. -/
def spotReport : SpotReport :=
  ⟨["funding_z_fade_1_0", "funding_z_fade_1_5", "funding_z_fade_2_0", "funding_z_follow_1_0",
    "funding_z_follow_1_5", "funding_z_follow_2_0", "ema_9_21_funding_agree",
    "momentum_12_funding_agree", "ma_cross_10_30"].map fun id => (id, false), none⟩

def spotSearch : SpotSearch := fun _ => .ok spotReport

theorem utcDayOpen_day (day : ℕ) : utcDayOpen (86400 * (day : ℚ)) = 86400 * day := by
  have hfloor : utcDate (86400 * (day : ℚ)) = day := by
    rw [utcDate, mul_div_cancel_left₀ _ (by norm_num)]
    exact Int.floor_natCast day
  rw [utcDayOpen, hfloor, Int.cast_natCast]

theorem resample_tape (rate : ℚ) : resampleFundingToDaily (tape rate) = tape rate := by
  refine resampleFundingToDaily_of_daily ?_ ?_
  · intro e he
    obtain ⟨day, -, rfl⟩ := List.mem_map.mp he
    exact utcDayOpen_day day
  · refine List.pairwise_map.mpr ((List.pairwise_lt_range' 1).imp fun {i j} hij => ?_)
    have hlt : ((i : ℕ) : ℚ) < j := by exact_mod_cast hij
    show 86400 * ((i : ℕ) : ℚ) < 86400 * j
    linarith

theorem resampled_print (btc eth : ℚ) : (print btc eth).resampled "1d" = print btc eth := by
  have hmap : (Dict.ofList [("BTC/USD", tape btc), ("ETH/USD", tape eth)]).map
      (fun _ => resampleFundingToDaily)
        = Dict.ofList [("BTC/USD", tape btc), ("ETH/USD", tape eth)] := by
    refine (Dict.mk.injEq _ _ _ _).mpr ?_
    show [("BTC/USD", resampleFundingToDaily (tape btc)),
      ("ETH/USD", resampleFundingToDaily (tape eth))]
        = [("BTC/USD", tape btc), ("ETH/USD", tape eth)]
    rw [resample_tape, resample_tape]
  unfold CarryPrint.resampled
  rw [if_pos rfl]
  show CarryPrint.mk _ _ (some ((Dict.ofList _).map _)) _ _ = _
  rw [hmap]
  rfl

theorem resampled_prints (b e b' e' : ℚ) :
    (⟨print b e, print b' e'⟩ : PrintPair).resampled args.interval
      = ⟨print b e, print b' e'⟩ := by
  show PrintPair.mk ((print _ _).resampled "1d") ((print _ _).resampled "1d") = _
  rw [resampled_print, resampled_print]

theorem basis_unseen (rate : ℚ) :
    ∀ e ∈ tape rate, (basisByTs (some basis)).get? (utcDayOpen e.1) = none := by
  intro e he
  obtain ⟨day, hday, rfl⟩ := List.mem_map.mp he
  rw [utcDayOpen_day]
  have hpos : (0 : ℚ) < day := by
    exact_mod_cast Nat.lt_of_lt_of_le Nat.zero_lt_one (List.mem_range'_1.mp hday).1
  have hzero : utcDayOpen 0 = 0 := by simpa using utcDayOpen_day 0
  have hbasis : basisByTs (some basis) = Dict.empty.set 0 (1 / 1000) := by
    rw [basisByTs, Option.getD_some, basis, List.map_singleton, hzero]
    rfl
  rw [hbasis, Dict.get?_set_of_ne _ (by linarith), Dict.get?_empty]

/-- The nets of an always-on harvest at a rate. -/
def nets (cost rate : ℚ) : List ℚ := 0 :: (|rate| - cost) :: List.replicate 718 |rate|

theorem perPrint_tape {a : CarryArgs} (habs : a.absThreshold = none) (hz : a.zThreshold = none)
    (rate : ℚ) : (hedgedCarryPerPrint a (some basis) (tape rate)).1 = nets a.cost rate := by
  have htape : tape rate = (86400 * ((1 : ℕ) : ℚ), rate) :: (86400 * ((2 : ℕ) : ℚ), rate)
      :: (List.range' 3 718).map fun day : ℕ => (86400 * (day : ℚ), rate) := rfl
  have hunseen := basis_unseen rate
  rw [htape, List.forall_mem_cons] at hunseen
  have hrest : ((List.range' 3 718).map fun day : ℕ => (86400 * (day : ℚ), rate)).map
      (fun e : Time × ℚ => |e.2|) = List.replicate 718 |rate| := by
    rw [List.map_map, show ((fun e : Time × ℚ => |e.2|) ∘ fun day : ℕ =>
      (86400 * (day : ℚ), rate)) = fun _ => |rate| from rfl, List.map_const', List.length_range']
  rw [htape, perPrint_always habs hz hunseen.2, hrest]
  rfl

theorem length_nets {a : CarryArgs} (habs : a.absThreshold = none) (hz : a.zThreshold = none)
    (rate : ℚ) : 2 ≤ (hedgedCarryPerPrint a (some basis) (tape rate)).1.length := by
  rw [perPrint_tape habs hz, nets, List.length_cons, List.length_cons]
  omega

theorem upper_required : ∀ symbol ∈ requiredSymbols, Text.upper symbol = symbol := by
  decide +kernel

theorem seriesOf_print (btc eth : ℚ) :
    lookupSeries (print btc eth).fundingBySymbol "BTC/USD" = some (tape btc) ∧
      lookupSeries (print btc eth).fundingBySymbol "ETH/USD" = some (tape eth) := by
  have hbtc : Text.upper "BTC/USD" = "BTC/USD" := upper_required _ (by decide)
  have heth : Text.upper "ETH/USD" = "ETH/USD" := upper_required _ (by decide)
  unfold lookupSeries
  rw [hbtc, heth]
  exact ⟨rfl, rfl⟩

theorem basisFor_print (btc eth : ℚ) (symbol : String) (h : symbol ∈ requiredSymbols) :
    basisFor symbol (print btc eth).basis (print btc eth).basisBySymbol = some basis := by
  have hbtc : Text.upper "BTC/USD" = "BTC/USD" := upper_required _ (by decide)
  have heth : Text.upper "ETH/USD" = "ETH/USD" := upper_required _ (by decide)
  unfold basisFor lookupSeries
  rcases List.mem_cons.mp h with rfl | h
  · rw [if_pos (show (print btc eth).basisBySymbol.isSome = true from rfl),
      if_neg (by decide), hbtc]
    rfl
  · obtain rfl := List.mem_singleton.mp h
    rw [if_pos (show (print btc eth).basisBySymbol.isSome = true from rfl),
      if_neg (by decide), heth]
    rfl

/-- The two rows of a candidate. -/
theorem perAsset_print (btc eth : ℚ) (sizes : WalkSizes) (candidate : CarryCandidate) :
    ((print btc eth).scoreCandidate args sizes candidate).perAsset
      = [("BTC/USD", scoreHedgedCarry (args.carryArgs candidate) (1 / 5) sizes 3 (some basis)
            (tape btc)),
          ("ETH/USD", scoreHedgedCarry (args.carryArgs candidate) (1 / 5) sizes 3 (some basis)
            (tape eth))] := by
  obtain ⟨hbtc, heth⟩ := seriesOf_print btc eth
  have hsymbols : (print btc eth).symbols = ["BTC/USD", "ETH/USD"] := rfl
  have hseries : (print btc eth).seriesOf "BTC/USD" = some (tape btc) ∧
      (print btc eth).seriesOf "ETH/USD" = some (tape eth) := by
    unfold CarryPrint.seriesOf
    rw [if_neg (by decide), if_neg (by decide)]
    exact ⟨hbtc, heth⟩
  unfold CarryPrint.scoreCandidate
  dsimp only
  rw [hsymbols, List.filterMap_cons, List.filterMap_cons, List.filterMap_nil, hseries.1, hseries.2,
    basisFor_print btc eth _ (by decide), basisFor_print btc eth _ (by decide)]
  rfl

theorem split_nets (cost rate : ℚ) : splitPrints (1 / 5) (nets cost rate) =
    (0 :: (|rate| - cost) :: List.replicate 574 |rate|, List.replicate 144 |rate|) := by
  have hlength : (nets cost rate).length = 720 := by
    rw [nets, List.length_cons, List.length_cons, List.length_replicate]
  have hsize : carryHoldoutSize 720 (1 / 5) = 144 := by
    have hfloor : holdoutSize 720 (1 / 5) = 144 := by
      have hhalf : ((720 : ℕ) : ℚ) * (1 / 5) = (144 : ℤ) := by norm_num
      rw [holdoutSize, hhalf, Int.floor_intCast]
      rfl
    rw [carryHoldoutSize, hfloor]
    rfl
  unfold splitPrints
  rw [hlength, hsize, nets]
  simp only [Nat.reduceSub, List.take_succ_cons, List.drop_succ_cons, List.take_replicate,
    List.drop_replicate]
  rfl

theorem compound_window (c r : ℚ) {count start : ℕ} (hstart : 2 ≤ start)
    (hfits : start + 60 ≤ count + 2) :
    compound (((0 :: c :: List.replicate count r).drop start).take 60) =
      compound (List.replicate 60 r) := by
  obtain ⟨skipped, rfl⟩ := Nat.exists_eq_add_of_le' hstart
  rw [List.drop_succ_cons, List.drop_succ_cons, List.drop_replicate, List.take_replicate,
    min_eq_left (by omega)]

theorem totals_nets (cost rate : ℚ) :
    researchTotals (WalkSizes.default 31) (splitPrints (1 / 5) (nets cost rate)).1 =
      List.replicate 6 (compound (List.replicate 60 |rate|)) := by
  have hsizes : chooseWalkforward 576 { WalkSizes.default 31 with warmup := 0 } =
      some { WalkSizes.default 31 with warmup := 0 } := rfl
  have hstarts : foldStarts 180 60 60 576 = [0, 60, 120, 180, 240, 300] := by decide +kernel
  rw [split_nets, researchTotals, List.length_cons, List.length_cons, List.length_replicate,
    hsizes, foldTotals]
  dsimp only [WalkSizes.default]
  rw [List.length_cons, List.length_cons, List.length_replicate, hstarts]
  refine (List.map_congr_left fun start hstart => ?_).trans
    List.map_const'
  have hle : ∀ start ∈ [0, 60, 120, 180, 240, 300], start ≤ 300 := by decide
  have hstart' := hle start hstart
  exact compound_window _ _ (by omega) (by omega)

theorem wfMean_window (c rate : ℚ) (prints : List ℚ) (h : prints = List.replicate 240 rate ∨
    prints = 0 :: c :: List.replicate 238 rate) :
    windowWfMean prints = meanOption [compound (List.replicate 60 rate)] := by
  have hsizes : chooseWalkforward 240 (WalkSizes.default 0) = some (WalkSizes.default 0) := rfl
  have hstarts : foldStarts 180 60 60 240 = [0] := by decide
  rcases h with rfl | rfl
  · rw [windowWfMean, List.length_replicate, hsizes, foldTotals]
    dsimp only [WalkSizes.default]
    rw [List.length_replicate, hstarts, List.map_singleton, List.drop_replicate,
      List.take_replicate]
    rfl
  · rw [windowWfMean, List.length_cons, List.length_cons, List.length_replicate, hsizes,
      foldTotals]
    dsimp only [WalkSizes.default]
    rw [List.length_cons, List.length_cons, List.length_replicate, hstarts, List.map_singleton,
      compound_window _ _ (by omega) (by omega)]

theorem recentWindow_nets (cost rate : ℚ) {offset : ℕ}
    (h : offset ∈ List.range multiwindowCount) :
    recentWindow offset (nets cost rate) = List.replicate 240 |rate| ∨
      recentWindow offset (nets cost rate)
        = 0 :: (|rate| - cost) :: List.replicate 238 |rate| := by
  have hlength : (nets cost rate).length = 720 := by
    rw [nets, List.length_cons, List.length_cons, List.length_replicate]
  have hoffset : offset = 0 ∨ 1 ≤ offset ∧ offset ≤ 2 := by
    have hlt : offset < 3 := List.mem_range.mp h
    omega
  rw [recentWindow, hlength, multiwindowCount, multiwindowBars, nets]
  rcases hoffset with rfl | ⟨hfrom, hto⟩
  · refine Or.inr ?_
    rw [List.take_succ_cons, List.take_succ_cons, List.take_replicate]
    rfl
  · refine Or.inl ?_
    obtain ⟨upto, hupto⟩ : ∃ upto, 720 - (3 - offset - 1) * 240 = upto + 2 :=
      ⟨718 - (3 - offset - 1) * 240, by omega⟩
    obtain ⟨start, hstart⟩ : ∃ start, 720 - (3 - offset) * 240 = start + 2 :=
      ⟨718 - (3 - offset) * 240, by omega⟩
    rw [hupto, hstart, List.take_succ_cons, List.take_succ_cons, List.drop_succ_cons,
      List.drop_succ_cons, List.take_replicate, List.drop_replicate]
    congr 1
    omega

theorem compound_replicate (count : ℕ) (r : ℚ) :
    compound (List.replicate count r) = (1 + r) ^ count - 1 := by
  rw [compound, List.map_replicate, List.prod_replicate]

theorem assetSign_replicate {r : ℚ} (hr : 0 < r) {folds count : ℕ} (hfolds : 0 < folds)
    (hcount : 0 < count) :
    assetSign (meanOption (List.replicate folds (compound (List.replicate count r)))) = true := by
  have hne : List.replicate folds (compound (List.replicate count r)) ≠ [] := by
    rw [ne_eq, List.replicate_eq_nil_iff]
    omega
  have hpos : 0 < compound (List.replicate count r) := by
    rw [compound_replicate, sub_pos]
    exact one_lt_pow₀ (by linarith) (by omega)
  have hfolds' : (0 : ℚ) < folds := by exact_mod_cast hfolds
  rw [meanOption, if_neg hne, List.sum_replicate, List.length_replicate, nsmul_eq_mul]
  exact decide_eq_true (div_pos (mul_pos hfolds' hpos) hfolds')

/-- An asset that pays earns on either horizon, and in every window. -/
theorem signs_paid (cost : ℚ) {rate : ℚ} (hrate : 0 < rate) :
    assetSign (meanOption (researchTotals (WalkSizes.default 31)
          (splitPrints (1 / 5) (nets cost rate)).1)) = true ∧
      assetSign (if (splitPrints (1 / 5) (nets cost rate)).2 = [] then none
          else some (compound (splitPrints (1 / 5) (nets cost rate)).2)) = true ∧
      windowPasses (nets cost rate) (nets cost rate) = multiwindowCount := by
  have habs : 0 < |rate| := abs_pos.mpr hrate.ne'
  refine ⟨?_, ?_, ?_⟩
  · rw [totals_nets]
    exact assetSign_replicate habs (by omega) (by omega)
  · rw [split_nets, if_neg (by rw [List.replicate_eq_nil_iff]; omega), compound_replicate]
    exact decide_eq_true (sub_pos.mpr (one_lt_pow₀ (by linarith) (by omega)))
  · have hwindow : ∀ offset ∈ List.range multiwindowCount,
        assetSign (windowWfMean (recentWindow offset (nets cost rate))) = true := by
      intro offset hoffset
      rw [wfMean_window _ |rate| _ (recentWindow_nets cost rate hoffset)]
      exact assetSign_replicate habs Nat.one_pos (by omega)
    rw [windowPasses, List.countP_eq_length.mpr]
    · exact List.length_range
    · intro offset hoffset
      rw [hwindow offset hoffset]
      rfl

/-- One that pays nothing loses nothing after its first fold has begun. -/
theorem totals_unpaid :
    meanOption (researchTotals (WalkSizes.default 31)
          (splitPrints (1 / 5) (nets (3 / 1000) 0)).1) = some 0 ∧
      (if (splitPrints (1 / 5) (nets (3 / 1000) 0)).2 = [] then none
          else some (compound (splitPrints (1 / 5) (nets (3 / 1000) 0)).2)) = some 0 := by
  rw [totals_nets, split_nets, if_neg (by rw [List.replicate_eq_nil_iff]; omega),
    compound_replicate, compound_replicate]
  norm_num [meanOption]

theorem rate_pos {rate : ℚ} (hrate : rate ∈ [(3 / 10000 : ℚ), 4 / 10000]) : 0 < rate := by
  simp only [List.mem_cons, List.not_mem_nil, or_false] at hrate
  rcases hrate with rfl | rfl <;> norm_num

theorem score_paid {a : CarryArgs} (habs : a.absThreshold = none) (hz : a.zThreshold = none)
    {rate : ℚ} (hrate : rate ∈ [(3 / 10000 : ℚ), 4 / 10000]) (minTrades : ℕ) :
    assetSign (scoreHedgedCarry a (1 / 5) (WalkSizes.default 31) minTrades (some basis)
        (tape rate)).meanWfTotalReturn = true ∧
      assetSign (scoreHedgedCarry a (1 / 5) (WalkSizes.default 31) minTrades (some basis)
        (tape rate)).meanHoldoutTotalReturn = true := by
  rw [meanWf_score (length_nets habs hz rate), meanHoldout_score (length_nets habs hz rate),
    perPrint_tape habs hz]
  exact ⟨(signs_paid a.cost (rate_pos hrate)).1, (signs_paid a.cost (rate_pos hrate)).2.1⟩

theorem score_unpaid {a : CarryArgs} (habs : a.absThreshold = none) (hz : a.zThreshold = none)
    (hcost : a.cost = 3 / 1000) (minTrades : ℕ) :
    (scoreHedgedCarry a (1 / 5) (WalkSizes.default 31) minTrades (some basis)
        (tape 0)).meanWfTotalReturn = some 0 ∧
      (scoreHedgedCarry a (1 / 5) (WalkSizes.default 31) minTrades (some basis)
        (tape 0)).meanHoldoutTotalReturn = some 0 := by
  rw [meanWf_score (length_nets habs hz 0), meanHoldout_score (length_nets habs hz 0),
    perPrint_tape habs hz, hcost]
  exact totals_unpaid

/-- `carry_hedged_sign`. -/
def sign : CarryCandidate :=
  ⟨"carry_hedged_sign", "hedged cash-and-carry; always harvest |rate|", none, none⟩

theorem cost_sign : (args.carryArgs sign).cost = 3 / 1000 := by
  show openCost 10 5 carryLegs = 3 / 1000
  norm_num [openCost, carryLegs]

/-- It is eligible where BTC pays, whether ETH pays or not. -/
theorem eligible_sign {btc eth : ℚ} (hbtc : btc ∈ [(3 / 10000 : ℚ), 4 / 10000])
    (heth : eth = 0 ∨ eth ∈ [(3 / 10000 : ℚ), 4 / 10000]) :
    ((print btc eth).scoreCandidate args (WalkSizes.default 31) sign).eligible = true := by
  obtain ⟨hwf, hholdout⟩ := score_paid (a := args.carryArgs sign) rfl rfl hbtc 3
  have hother := score_unpaid (a := args.carryArgs sign) rfl rfl cost_sign 3
  have hperAsset := perAsset_print btc eth (WalkSizes.default 31) sign
  obtain ⟨hmeanWf, hmeanHoldout⟩ :=
    means_scoreCandidate args (WalkSizes.default 31) (print btc eth) sign
  rw [eligible_scoreCandidate_iff, hmeanWf, hmeanHoldout, hperAsset]
  constructor
  · refine clearsFloor_mean (fun e : String × CarryMetrics => e.2.meanWfTotalReturn) hwf ?_
    rcases heth with rfl | heth
    · exact Or.inl hother.1
    · exact Or.inr (score_paid (a := args.carryArgs sign) rfl rfl heth 3).1
  · refine clearsFloor_mean (fun e : String × CarryMetrics => e.2.meanHoldoutTotalReturn)
      hholdout ?_
    rcases heth with rfl | heth
    · exact Or.inl hother.2
    · exact Or.inr (score_paid (a := args.carryArgs sign) rfl rfl heth 3).2

theorem spotSearchOn_eq (print : CarryPrint) (histories : Histories) (sizes : WalkSizes) :
    spotSearchOn spotSearch print histories sizes = .ok (some spotReport) ∨
      spotSearchOn spotSearch print histories sizes = .ok none := by
  unfold spotSearchOn
  dsimp only
  generalize (if print.usable then print.sliced histories else []) = sliced
  split
  · exact Or.inl rfl
  · exact Or.inr rfl

/-- Nobody is eligible in the spot search. -/
theorem mem_eligibleIds {print : CarryPrint} {histories : Histories} {sizes : WalkSizes}
    {search : Option SpotReport} (h : spotSearchOn spotSearch print histories sizes = .ok search)
    {carry : List CarryCandidateResult} {id : String} :
    id ∈ eligibleIds search carry ↔ ∃ row ∈ carry, row.eligible = true ∧ row.candidateId = id := by
  have hnone : (spotReport.candidates.filter fun row => row.2 && !controlIds.contains row.1) = [] :=
    by decide
  unfold eligibleIds
  rcases spotSearchOn_eq print histories sizes with hsome | hempty
  · cases h.symm.trans hsome
    rw [Option.elim_some, hnone]
    simp [and_assoc]
  · cases h.symm.trans hempty
    simp [and_assoc]

theorem length_tape (rate : ℚ) : (tape rate).length = 720 := by
  rw [tape, List.length_map, List.length_range']

/-- The tapes cover the bars. -/
theorem overlap_bars (rate : ℚ) (symbol : String) :
    CarryPrint.overlap (some (tape rate)) (bars symbol) = bars symbol := by
  have hhead : (tape rate).head? = some (86400 * ((1 : ℕ) : ℚ), rate) := rfl
  have hlast : (tape rate).getLast? = some (86400 * ((720 : ℕ) : ℚ), rate) := by
    rw [tape, List.getLast?_map, List.getLast?_range']
    rfl
  unfold CarryPrint.overlap
  rw [Option.bind_some, Option.bind_some, hhead, hlast]
  refine List.filter_eq_self.mpr fun c hc => decide_eq_true ?_
  obtain ⟨day, hday, rfl⟩ := List.mem_map.mp hc
  obtain ⟨hlow, hhigh⟩ := List.mem_range'_1.mp hday
  have hlow' : ((1 : ℕ) : ℚ) ≤ day := by exact_mod_cast hlow
  have hhigh' : (day : ℚ) ≤ ((720 : ℕ) : ℚ) := by exact_mod_cast (by omega)
  exact ⟨mul_le_mul_of_nonneg_left hlow' (by norm_num),
    mul_le_mul_of_nonneg_left hhigh' (by norm_num)⟩

theorem usable_print (btc eth : ℚ) : (print btc eth).usable = true := by
  obtain ⟨hbtc, heth⟩ := seriesOf_print btc eth
  show (requiredSymbols.all fun symbol =>
    (lookupSeries (print btc eth).fundingBySymbol symbol).any fun series =>
      decide (minFundingPoints ≤ series.length)) = true
  have hshort : ∀ rate : ℚ, decide (minFundingPoints ≤ (tape rate).length) = true := by
    intro rate
    rw [length_tape]
    rfl
  rw [requiredSymbols, List.all_cons, List.all_cons, List.all_nil, hbtc, heth, Option.any_some,
    Option.any_some, hshort, hshort]
  rfl

theorem alignedBars_print (btc eth : ℚ) : (print btc eth).alignedBars histories = 720 := by
  obtain ⟨hbtc, heth⟩ := seriesOf_print btc eth
  have hseries : ∀ symbol rate,
      lookupSeries (print btc eth).fundingBySymbol symbol = some (tape rate) →
        (print btc eth).seriesFor (bars symbol) = some (tape rate) := by
    intro symbol rate hlookup
    have hfirst : (bars symbol).head? = some (bar symbol 1) := rfl
    have hsymbol : (bar symbol 1).symbol = symbol := rfl
    have hfilled : ((some (tape rate)).any fun series => !series.isEmpty) = true := rfl
    unfold CarryPrint.seriesFor
    dsimp only
    rw [hfirst, Option.bind_some, hsymbol, hlookup, if_pos hfilled]
  have hlength : ∀ symbol, (bars symbol).length = 720 := by
    intro symbol
    rw [bars, List.length_map, List.length_range']
  have hsliced : (print btc eth).sliced histories
      = [("BTC/USD@1d", bars "BTC/USD"), ("ETH/USD@1d", bars "ETH/USD")] := by
    show ([("BTC/USD@1d", CarryPrint.overlap ((print btc eth).seriesFor _) _),
      ("ETH/USD@1d", CarryPrint.overlap ((print btc eth).seriesFor _) _)].filter _) = _
    rw [hseries _ _ hbtc, hseries _ _ heth, overlap_bars, overlap_bars]
    rfl
  unfold CarryPrint.alignedBars
  rw [if_pos (usable_print btc eth), hsliced, List.map_cons, List.map_cons, List.map_nil, hlength,
    hlength]
  rfl

theorem hasBasis_print : (print 0 0).hasBasis = true := by decide

theorem meetsBar (b e b' e' : ℚ) : MeetsBar args ⟨print b e, print b' e'⟩ where
  daily := rfl
  primary_usable := usable_print b e
  second_usable := usable_print b' e'
  primary_bars := (alignedBars_print b e).ge
  second_bars := (alignedBars_print b' e').ge
  primary_basis := by
    exact hasBasis_print
  second_basis := by
    exact hasBasis_print

/-- `carry_hedged_sign` passes on both prints wherever BTC pays. -/
theorem sign_passes {b e b' e' : ℚ} (hb : b ∈ [(3 / 10000 : ℚ), 4 / 10000])
    (he : e = 0 ∨ e ∈ [(3 / 10000 : ℚ), 4 / 10000]) (hb' : b' ∈ [(3 / 10000 : ℚ), 4 / 10000])
    (he' : e' = 0 ∨ e' ∈ [(3 / 10000 : ℚ), 4 / 10000]) (search secondSearch : Option SpotReport) :
    "carry_hedged_sign" ∈
      (⟨print b e, print b' e'⟩ : PrintPair).passers args search secondSearch := by
  obtain ⟨hdual, -, hbasis⟩ := meetsBar_iff.mp (meetsBar b e b' e')
  have hbars : (⟨print b e, print b' e'⟩ : PrintPair).primaryBars = 720 := alignedBars_print b e
  have hsizes : (⟨print b e, print b' e'⟩ : PrintPair).sizes args = WalkSizes.default 31 := by
    unfold PrintPair.sizes PrintPair.chosenSizes
    rw [hbars]
    decide +kernel
  have hmem : ∀ btc eth : ℚ, btc ∈ [(3 / 10000 : ℚ), 4 / 10000] →
      (eth = 0 ∨ eth ∈ [(3 / 10000 : ℚ), 4 / 10000]) → ∀ search,
      "carry_hedged_sign" ∈
        eligibleIds search ((print btc eth).scoreCarryCatalog args (WalkSizes.default 31)) := by
    intro btc eth hbtc heth search
    refine List.mem_append_right _ (List.mem_map.mpr ⟨_, List.mem_filter.mpr
      ⟨List.mem_map_of_mem (List.mem_cons_self : sign ∈ carryCatalog),
        eligible_sign hbtc heth⟩, rfl⟩)
  have hscored : (⟨print b e, print b' e'⟩ : PrintPair).scored = ⟨print b e, print b' e'⟩ := by
    unfold PrintPair.scored
    rw [hbasis]
    rfl
  rw [mem_passers_iff hdual, PrintPair.primaryCarry, PrintPair.secondCarry, if_pos hdual,
    if_pos (usable_print b e), hsizes, hscored]
  exact ⟨hmem b e hb he _, hmem b' e' hb' he' _⟩

/-- No carry candidate clears #96 where ETH pays nothing. -/
theorem not_eligible96 (btc : ℚ) (candidate : CarryCandidate) :
    ((print btc 0).gates args candidate).eligible96 ≠ some true := by
  intro h
  obtain ⟨eth, heth, hsign⟩ := eth_of_eligible96 h
  cases heth.symm.trans (seriesOf_print btc 0).2
  have hcost : (args.carryArgs candidate).cost = 3 / 1000 := cost_sign
  rw [basisFor_print btc 0 _ (by decide), not_assetSign_idle (by rw [hcost]; norm_num)
    (by rw [hcost]; norm_num) ?_ (basis_unseen 0)] at hsign
  · cases hsign
  · intro e he
    obtain ⟨day, -, rfl⟩ := List.mem_map.mp he
    rfl

/-- A run on two prints of the venues reports. -/
theorem exists_report (b e b' e' : ℚ) :
    ∃ search secondSearch,
      (⟨print b e, print b' e'⟩ : PrintPair).primarySearch args spotSearch = .ok search ∧
        (⟨print b e, print b' e'⟩ : PrintPair).secondSearch args spotSearch = .ok secondSearch ∧
        runFundingCarry args spotSearch ⟨print b e, print b' e'⟩
          = .ok ((⟨print b e, print b' e'⟩ : PrintPair).report args search secondSearch) := by
  have hsearch : ∀ print histories sizes,
      ∃ search, spotSearchOn spotSearch print histories sizes = .ok search := by
    intro print histories sizes
    rcases spotSearchOn_eq print histories sizes with h | h
    · exact ⟨_, h⟩
    · exact ⟨_, h⟩
  obtain ⟨search, hprimary⟩ := hsearch (print b e) histories
    ((⟨print b e, print b' e'⟩ : PrintPair).sizes args)
  obtain ⟨secondSearch, hsecond⟩ := hsearch (print b' e')
    (⟨print b e, print b' e'⟩ : PrintPair).secondHistories
    ((⟨print b e, print b' e'⟩ : PrintPair).sizes args)
  have hsecond' :
      (⟨print b e, print b' e'⟩ : PrintPair).secondSearch args spotSearch = .ok secondSearch := by
    rw [PrintPair.secondSearch, if_pos (meetsBar b e b' e').dual]
    exact hsecond
  refine ⟨search, secondSearch, hprimary, hsecond', runFundingCarry_ok_iff.mpr ⟨?_, search,
    secondSearch, ?_, ?_, ?_⟩⟩
  · exact List.cons_ne_nil _ _
  · rw [resampled_prints]
    exact hprimary
  · rw [resampled_prints]
    exact hsecond'
  · rw [resampled_prints]

end Lopsided

/-- On both venues ETH pays nothing: no carry candidate clears #96 on either print. The means of
BTC and ETH are positive, the gates can be evaluated, and the run can promote. -/
theorem uncleared_candidate_promotes :
    ∃ report, runFundingCarry Lopsided.args Lopsided.spotSearch Lopsided.pair = .ok report ∧
      report.canPromote = true ∧
      ∀ spotClears, ¬∃ id ∈ report.dualPrintPasserIds,
        ClearsOnBoth Lopsided.args spotClears (Lopsided.pair.resampled Lopsided.args.interval)
          id := by
  obtain ⟨search, secondSearch, hsearch, -, hrun⟩ :=
    Lopsided.exists_report (3 / 10000) 0 (4 / 10000) 0
  have hbar := Lopsided.meetsBar (3 / 10000) 0 (4 / 10000) 0
  have hsign := Lopsided.sign_passes List.mem_cons_self (Or.inl rfl)
    (List.mem_cons_of_mem _ List.mem_cons_self) (Or.inl rfl) search secondSearch
  refine ⟨_, hrun, can_promote_iff.mpr ⟨hbar, List.ne_nil_of_mem hsign⟩, ?_⟩
  rintro spotClears ⟨id, hid, hclears⟩
  -- nobody of the spot search is eligible, so the passer is a carry candidate
  rw [dualPrintPasserIds_report, mem_passers_iff hbar.dual] at hid
  obtain ⟨row, hrow, -, hrowId⟩ := (Lopsided.mem_eligibleIds hsearch).mp hid.1
  rw [PrintPair.primaryCarry, if_pos hbar.primary_usable] at hrow
  obtain ⟨candidate, hcandidate, rfl⟩ := List.mem_map.mp hrow
  have hclears' := hclears.primary
  rw [Lopsided.pair, Lopsided.resampled_prints] at hclears'
  rcases hclears' with ⟨other, -, -, heligible, -⟩ | ⟨hspot, -⟩
  · exact Lopsided.not_eligible96 _ other heligible
  · exact hspot (List.mem_map.mpr ⟨candidate, hcandidate, hrowId⟩)

/-- **When a promotion means that the gates were cleared.** A run reports that it can promote
only with a passer that clears #96, A, B and C on both prints, with a basis applied on both,
exactly when inputs that meet the bar and have a candidate eligible on both prints have one that
also clears them. -/
theorem promotion_clears_iff (args : CarryRunArgs) (spotSearch : SpotSearch)
    (spotClears : CarryPrint → String → Prop) (pair : PrintPair) {report : FundingCarryReport}
    (hrun : runFundingCarry args spotSearch pair = .ok report) :
    (report.canPromote = true →
        ∃ id ∈ report.dualPrintPasserIds,
          ClearsOnBoth args spotClears (pair.resampled args.interval) id) ↔
      (MeetsBar args (pair.resampled args.interval) →
        (∃ id, EligibleOnBoth args spotSearch (pair.resampled args.interval) id) →
        ∃ id, EligibleOnBoth args spotSearch (pair.resampled args.interval) id ∧
          ClearsOnBoth args spotClears (pair.resampled args.interval) id) := by
  obtain ⟨-, search, secondSearch, hsearch, hsecond, rfl⟩ := runFundingCarry_ok_iff.mp hrun
  set prints := pair.resampled args.interval with hprints
  have heligible : prints.dual = true → ∀ id, EligibleOnBoth args spotSearch prints id ↔
      id ∈ prints.passers args search secondSearch := by
    intro hdual id
    rw [mem_passers_iff hdual]
    constructor
    · rintro ⟨search', secondSearch', hsearch', hsecond', hids⟩
      cases hsearch.symm.trans hsearch'
      cases hsecond.symm.trans hsecond'
      exact hids
    · exact fun hids => ⟨search, secondSearch, hsearch, hsecond, hids⟩
  rw [can_promote_iff]
  constructor
  · intro h hbar hsome
    obtain ⟨id, hid⟩ := hsome
    have hmem := (heligible hbar.dual id).mp hid
    obtain ⟨id', hid', hclears⟩ := h ⟨hbar, List.ne_nil_of_mem hmem⟩
    exact ⟨id', (heligible hbar.dual id').mpr hid', hclears⟩
  · rintro h ⟨hbar, hne⟩
    obtain ⟨id, hid⟩ := List.exists_mem_of_ne_nil _ hne
    obtain ⟨id', hid', hclears⟩ := h hbar ⟨id, (heligible hbar.dual id).mpr hid⟩
    exact ⟨id', (heligible hbar.dual id').mp hid', hclears⟩

namespace Lopsided

/-- Where BTC and ETH pay the same, `carry_hedged_sign` clears every gate. -/
theorem sign_clears {rate : ℚ} (hrate : rate ∈ [(3 / 10000 : ℚ), 4 / 10000])
    (spotClears : CarryPrint → String → Prop) :
    ClearsGates args spotClears (print rate rate) "carry_hedged_sign" := by
  have hgates : (print rate rate).gates args sign
      = gatesOf 720 (assetScores (args.carryArgs sign) (1 / 5) (some basis) (tape rate))
          (assetScores (args.carryArgs sign) (1 / 5) (some basis) (tape rate)) := by
    obtain ⟨hbtc, heth⟩ := seriesOf_print rate rate
    have husable : fundingUsable none (print rate rate).fundingBySymbol = true :=
      usable_print rate rate
    unfold CarryPrint.gates evaluateCarryHardGates
    rw [if_pos husable, hbtc, heth]
    dsimp only
    rw [length_tape, min_self, if_neg (by decide), basisFor_print rate rate _ (by decide),
      basisFor_print rate rate _ (by decide)]
    rfl
  refine Or.inl ⟨sign, List.mem_cons_self, rfl, ?_⟩
  rw [hgates]
  obtain ⟨hbase, hstress, hprints⟩ :=
    assetScores_eq (args.carryArgs sign) (1 / 5) (some basis) (tape rate)
  refine gatesOf_twin ?_ ?_ ?_
  · rw [hbase]
    exact score_paid (a := args.carryArgs sign) rfl rfl hrate 1
  · rw [hstress]
    exact score_paid (a := (args.carryArgs sign).stressed) rfl rfl hrate 1
  · rw [hprints, perPrint_tape (a := args.carryArgs sign) rfl rfl, cost_sign]
    rw [(signs_paid _ (rate_pos hrate)).2.2]
    decide

theorem basisApplied (btc eth : ℚ) : BasisApplied (print btc eth) := by
  intro symbol hsymbol
  rw [basisFor_print btc eth symbol hsymbol]
  rfl

end Lopsided

theorem promotion_clears_iff_paid :
    ∃ report,
      runFundingCarry Lopsided.args Lopsided.spotSearch
          ⟨Lopsided.print (3 / 10000) (3 / 10000), Lopsided.print (4 / 10000) (4 / 10000)⟩
          = .ok report ∧
        report.canPromote = true ∧
        ∃ id ∈ report.dualPrintPasserIds,
          ClearsOnBoth Lopsided.args (fun _ _ => False)
            ((⟨Lopsided.print (3 / 10000) (3 / 10000),
              Lopsided.print (4 / 10000) (4 / 10000)⟩ : PrintPair).resampled Lopsided.args.interval)
            id := by
  obtain ⟨search, secondSearch, hsearch, hsecond, hrun⟩ :=
    Lopsided.exists_report (3 / 10000) (3 / 10000) (4 / 10000) (4 / 10000)
  have hthree : (3 / 10000 : ℚ) ∈ [(3 / 10000 : ℚ), 4 / 10000] := List.mem_cons_self
  have hfour : (4 / 10000 : ℚ) ∈ [(3 / 10000 : ℚ), 4 / 10000] :=
    List.mem_cons_of_mem _ List.mem_cons_self
  have hbar := Lopsided.meetsBar (3 / 10000) (3 / 10000) (4 / 10000) (4 / 10000)
  have hsign := Lopsided.sign_passes hthree (Or.inr hthree) hfour (Or.inr hfour) search secondSearch
  have hpromotes := can_promote_iff.mpr ⟨hbar, List.ne_nil_of_mem hsign⟩
  refine ⟨_, hrun, hpromotes, (promotion_clears_iff _ _ _ _ hrun).mpr ?_ hpromotes⟩
  intro _ _
  rw [Lopsided.resampled_prints]
  have hids := (mem_passers_iff hbar.dual).mp hsign
  exact ⟨"carry_hedged_sign", ⟨search, secondSearch, hsearch, hsecond, hids⟩,
    Lopsided.sign_clears hthree _, Lopsided.sign_clears hfour _, Lopsided.basisApplied _ _,
    Lopsided.basisApplied _ _⟩

end TraderStack
