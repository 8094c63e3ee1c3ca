import TraderStack.Risk.Limits
import TraderStack.Service.Exits

/-!
# The decision pipeline (pipeline.py, market/validation.py)

`VerticalSlicePipeline.process` turns one validated tick into at most one order
intent. Market data is checked first; protective exits come next, before every
gate that can withhold new risk; then the gates; then an entry of a fixed share
of the NAV. Exits and entries alike are sized by the risk engine.

What the cycle knows besides the tick is a parameter: the candles only by what
is read of them (their bar label and number, the features built from them, the
pre-trade gate's verdict on them), the external intelligence by the fields the
gates read.
-/

namespace TraderStack

open Lib

/-! ## Market data -/

/-- `MarketTick` (market/models.py:19–33). -/
structure MarketTick where
  source : MarketSource
  symbol : String
  observedAt : Time
  bid : ℚ
  ask : ℚ
  last : ℚ
  bid_pos : 0 < bid
  ask_pos : 0 < ask
  last_pos : 0 < last

namespace MarketTick

def mid (t : MarketTick) : ℚ := (t.bid + t.ask) / 2

def spreadBps (t : MarketTick) : ℚ := (t.ask - t.bid) / t.mid * 10000

/-- `symbol.split("/", 1)[0].upper()`. -/
def asset (t : MarketTick) : String :=
  Text.upper (String.ofList (t.symbol.toList.takeWhile (· ≠ '/')))

theorem mid_pos (t : MarketTick) : 0 < t.mid := half_pos (add_pos t.bid_pos t.ask_pos)

end MarketTick

/-- `ReferencePrice` (market/models.py:36–41). -/
structure ReferencePrice where
  source : MarketSource
  asset : String
  currency : String
  price : ℚ
  price_pos : 0 < price

/-- `PriceDivergence` (market/models.py:44–50). -/
structure PriceDivergence where
  primarySource : MarketSource
  referenceSource : MarketSource
  asset : String
  primaryPrice : ℚ
  referencePrice : ℚ
  divergenceBps : ℚ
deriving DecidableEq

/-- Why `process` raised. -/
inductive PipelineError where
  | differentAssets
  | differentCurrencies
  | insufficientCandles
  | unsupportedInterval (interval : String)
  /-- A validated record refused the named field. -/
  | invalidField (field : String)
deriving DecidableEq, Repr

/-- `calculate_divergence` (market/validation.py:4–18). -/
def calculateDivergence (primary reference : ReferencePrice) :
    Except PipelineError PriceDivergence :=
  if primary.asset ≠ reference.asset then .error .differentAssets
  else if primary.currency ≠ reference.currency then .error .differentCurrencies
  else
    .ok
      { primarySource := primary.source
        referenceSource := reference.source
        asset := primary.asset
        primaryPrice := primary.price
        referencePrice := reference.price
        divergenceBps := |primary.price - reference.price| / primary.price * 10000 }

/-- `all(divergence <= max)`, which stops at the first that is not. -/
def allWithin (primary : ReferencePrice) (maxDivergenceBps : ℚ) :
    List ReferencePrice → Except PipelineError Bool
  | [] => .ok true
  | r :: rs =>
    match calculateDivergence primary r with
    | .error e => .error e
    | .ok d => if d.divergenceBps ≤ maxDivergenceBps then allWithin primary maxDivergenceBps rs
      else .ok false

/-- `is_reference_consistent` (market/validation.py:21–31). -/
def isReferenceConsistent (primary : ReferencePrice) (references : List ReferencePrice)
    (maxDivergenceBps : ℚ) : Except PipelineError Bool :=
  let eligible := references.filter fun r => r.source ≠ .kraken
  if eligible.isEmpty then .ok false else allWithin primary maxDivergenceBps eligible

/-- The divergences of one price from later ones of other sources. -/
def divergencesFrom (a : ReferencePrice) (maxDivergenceBps : ℚ) :
    List ReferencePrice → Except PipelineError (List PriceDivergence)
  | [] => .ok []
  | b :: bs =>
    if a.source = b.source then divergencesFrom a maxDivergenceBps bs
    else do
      let d ← calculateDivergence a b
      let ds ← divergencesFrom a maxDivergenceBps bs
      return (if maxDivergenceBps < d.divergenceBps then [d] else []) ++ ds

/-- The divergences between any two prices of a list. -/
def divergencesAmong (maxDivergenceBps : ℚ) :
    List ReferencePrice → Except PipelineError (List PriceDivergence)
  | [] => .ok []
  | a :: rest => do
    let ds ← divergencesFrom a maxDivergenceBps rest
    let others ← divergencesAmong maxDivergenceBps rest
    return ds ++ others

/-- `pairwise_divergences` (market/validation.py:37–58). -/
def pairwiseDivergences (primary : ReferencePrice) (references : List ReferencePrice)
    (maxDivergenceBps : ℚ) : Except PipelineError (List PriceDivergence) :=
  divergencesAmong maxDivergenceBps
    (primary :: references.filter fun r => r.source ≠ .kraken)

/-! ## The cycle's other inputs -/

/-- `PreTradeCheck` (pretrade.py:31–40), the fields the pipeline reads. -/
structure PreTradeCheck where
  passed : Bool
  reasons : List String
  confirmedSide : Option Side
  confidence : ℚ
  regime : Option Regime
  confidence_bounds : 0 ≤ confidence ∧ confidence ≤ 1

/-- A non-empty candle history, as the pipeline reads it: the label of the last
bar, how many bars there are, the readings the feature builder derives, and the
gate's verdict. -/
structure CandleHistory where
  interval : String
  count : ℕ
  volatilityZ : ℚ
  garchForecastVol : Option ℚ
  pretrade : PreTradeCheck
  garch_nonneg : ∀ x ∈ garchForecastVol, 0 ≤ x

/-- `_INTERVAL_UNIT_SECONDS` (candles.py:48–54). -/
def intervalUnitSeconds : String → Option ℕ
  | "s" => some 1
  | "m" => some 60
  | "h" => some 3600
  | "d" => some 86400
  | "w" => some 604800
  | _ => none

/-- `interval_to_seconds` (candles.py:57–74). -/
def intervalToSeconds (interval : String) : Except PipelineError ℚ :=
  let text := (Text.lower (String.ofList (Text.strip interval.toList))).toList
  let digits := (text.filter Char.isDigit).map fun c => c.toNat - '0'.toNat
  match intervalUnitSeconds (String.ofList (text.filter fun c => !c.isDigit)) with
  | none => .error (.unsupportedInterval interval)
  | some seconds =>
    let magnitude := if digits.isEmpty then 1 else Text.natOfDigits digits
    if magnitude = 0 then .error (.unsupportedInterval interval)
    else .ok (magnitude * seconds : ℕ)

example : intervalToSeconds "15m" = .ok 900 ∧ intervalToSeconds " 1D" = .ok 86400 ∧
    intervalToSeconds "0h" = .error (.unsupportedInterval "0h") := by decide +kernel

/-- `CandleMarketFeatureBuilder` (market_features.py:14–25), its windows. -/
structure CandleMarketFeatureBuilder where
  trend4hLookback : ℕ
  trend1dLookback : ℕ
  volatilityLookback : ℕ
  volumeLookback : ℕ

/-- Can the builder read this many candles? `build` raises unless it has the
candles of its longest window, and its indicators raise on a window too short to
be one (market_features.py:27–38, indicators.py:33–55). -/
def CandleMarketFeatureBuilder.Suffices (b : CandleMarketFeatureBuilder) (count : ℕ) : Prop :=
  max (max (b.trend4hLookback + 1) (b.trend1dLookback + 1))
      (max (b.volatilityLookback + 1) b.volumeLookback) ≤ count ∧
    0 < b.trend4hLookback ∧ 0 < b.trend1dLookback ∧ 1 < b.volatilityLookback ∧ 1 < b.volumeLookback

instance (b : CandleMarketFeatureBuilder) (count : ℕ) : Decidable (b.Suffices count) :=
  inferInstanceAs (Decidable (_ ∧ _))

/-- `ExternalIntelligence` (intelligence_orchestrator.py:64–103), as the gates
read it. -/
structure ExternalIntelligence where
  asset : String
  providerUnavailable : Bool
  isEmpty : Bool
  adverseEvent : Bool
  mvrvZPercentile : Option ℚ
deriving DecidableEq

/-- The arguments of `process`, the clock it reads, and the decision id it would
mint. -/
structure MarketInput where
  tick : MarketTick
  references : List ReferencePrice
  candles : Option CandleHistory
  intelligence : Option ExternalIntelligence
  now : Time
  decisionId : String

/-- The intelligence, unless it is about another asset (pipeline.py:148–149). -/
def MarketInput.ownIntelligence (i : MarketInput) : Option ExternalIntelligence :=
  i.intelligence.filter fun x => Text.upper x.asset = i.tick.asset

/-! ## The pipeline -/

/-- `PipelineResult` (pipeline.py:42–57). -/
structure PipelineResult where
  acceptedMarketData : Bool
  rejectionReasons : List String
  featureVector : Option AssetFeatureVector
  pretradeCheck : Option PreTradeCheck
  proposal : Option TradeProposal
  riskResult : Option RiskResult
  paperOrder : Option PaperOrderIntent
  divergences : List PriceDivergence
  exitReason : Option ExitReason

/-- `VerticalSlicePipeline` (pipeline.py:69–94). `promoteUniverse` is the set of
symbols a daily paper pin admits, when one is active; `defaultInterval` is the
configured candle interval. -/
structure VerticalSlicePipeline where
  riskEngine : RiskEngine
  exits : ExitSettings
  maxTickAgeSeconds : ℚ
  maxSpreadBps : ℚ
  maxReferenceDivergenceBps : ℚ
  demonstrationNotionalPct : ℚ
  pretradeGate : Bool
  featureBuilder : Option CandleMarketFeatureBuilder
  defaultInterval : String
  blockOnAdverseNews : Bool
  requireExternalIntelligence : Bool
  onchainRegimeGate : Bool
  onchainRegimeMaxPercentile : ℚ
  promoteUniverse : Option (List String)

/-- A cycle whose market data was accepted but which proposes nothing. -/
def PipelineResult.withheld (features : AssetFeatureVector) (divergences : List PriceDivergence)
    (check : Option PreTradeCheck) (reasons : List String) : PipelineResult :=
  ⟨true, reasons, some features, check, none, none, none, divergences, none⟩

@[simp] theorem isExitStrategyId_exitStrategyId (reason : ExitReason) :
    isExitStrategyId (exitStrategyId reason) = true := by
  cases reason <;> decide +kernel

/-- Is the proposal a protective exit? -/
def PipelineResult.proposesExit (r : PipelineResult) : Bool :=
  r.proposal.any fun proposal => isExitStrategyId proposal.strategyId

/-- The order intent of an approved proposal (pipeline.py:301–311, 384–395). -/
def paperOrderOf (proposal : TradeProposal) (risk : RiskResult) (reduceOnly : Bool) :
    Option PaperOrderIntent :=
  if h : risk.decision ≠ .reject ∧ 0 < risk.approvedNotionalUsd then
    some
      { decisionId := proposal.decisionId
        asset := proposal.asset
        side := proposal.side
        notionalUsd := risk.approvedNotionalUsd
        venue := "kraken_paper_trade"
        reduceOnly := reduceOnly
        notional_pos := h.2 }
  else none

/-- An exit is certain. -/
theorem certain_bounds : (0 : ℚ) ≤ 1 ∧ (1 : ℚ) ≤ 1 := ⟨zero_le_one, le_rfl⟩

/-- The confidence of an entry is one. -/
theorem checkConfidence_bounds (check : Option PreTradeCheck) :
    0 ≤ (check.map PreTradeCheck.confidence).getD (1 / 2) ∧
      (check.map PreTradeCheck.confidence).getD (1 / 2) ≤ 1 := by
  cases check with
  | none =>
    show (0 : ℚ) ≤ 1 / 2 ∧ (1 / 2 : ℚ) ≤ 1
    norm_num
  | some c => exact c.confidence_bounds

namespace VerticalSlicePipeline

variable (p : VerticalSlicePipeline) (i : MarketInput) (portfolio : PortfolioSnapshot)

/-- The tick as a reference price (pipeline.py:119–125). -/
def primary : ReferencePrice where
  source := i.tick.source
  asset := i.tick.asset
  currency := "USD"
  price := i.tick.last
  price_pos := i.tick.last_pos

/-- Why the market data is rejected, if it is, and the divergences it shows
(pipeline.py:107–136). -/
def validate : Except PipelineError (List String × List PriceDivergence) := do
  let eligible := i.references.filter fun r => Text.upper r.asset = i.tick.asset ∧ r.currency = "USD"
  let consistent ← isReferenceConsistent (primary i) eligible p.maxReferenceDivergenceBps
  let divergences ← pairwiseDivergences (primary i) eligible p.maxReferenceDivergenceBps
  let age := max 0 (i.now - i.tick.observedAt)
  let reasons :=
    (if p.maxTickAgeSeconds < age then ["stale_primary_tick"] else [])
      ++ (if p.maxSpreadBps < i.tick.spreadBps then ["spread_limit_exceeded"] else [])
      ++ (if eligible.isEmpty then ["no_independent_reference_price"]
        else if consistent then [] else ["reference_price_divergence"])
  return (reasons, divergences)

/-- The features without candles. -/
def neutralFeatures (hspread : 0 ≤ i.tick.spreadBps) : AssetFeatureVector where
  market :=
    { volatilityZ := 0
      spreadBps := i.tick.spreadBps
      garchForecastVol := none
      spread_nonneg := hspread
      garch_nonneg := nofun }

/-- The features the builder reads off the candles. -/
def builtFeatures (history : CandleHistory) (hspread : 0 ≤ i.tick.spreadBps) :
    AssetFeatureVector where
  market :=
    { volatilityZ := history.volatilityZ
      spreadBps := i.tick.spreadBps
      garchForecastVol := history.garchForecastVol
      spread_nonneg := hspread
      garch_nonneg := history.garch_nonneg }

/-- The market features (pipeline.py:138–146): built when there are candles and a
builder, which raises when they are too few. -/
def features (hspread : 0 ≤ i.tick.spreadBps) : Except PipelineError AssetFeatureVector :=
  match i.candles, p.featureBuilder with
  | some history, some builder =>
    if builder.Suffices history.count then .ok (builtFeatures i history hspread)
    else .error .insufficientCandles
  | _, _ => .ok (neutralFeatures i hspread)

/-- The label of the last candle, else the configured one; an empty label is
none. -/
def barLabel : String :=
  ((i.candles.map CandleHistory.interval).filter fun label => label ≠ "").getD p.defaultInterval

/-- `bar_seconds_for` (exits.py:64–66). -/
def barSecondsFor : Except PipelineError ℚ := intervalToSeconds (p.barLabel i)

/-- The exit rules on the held position (pipeline.py:320–350). -/
def exitSignal (check : Option PreTradeCheck) : Except PipelineError (Option ExitSignal) :=
  match portfolio.heldPositions.get? i.tick.asset with
  | none => .ok none
  | some held =>
    if held.quantity ≤ 0 then .ok none
    else
      (p.barSecondsFor i).map fun barSeconds =>
        evaluatePositionExits p.exits p.riskEngine.settings.tradingMode i.tick.asset held
          i.tick.last i.now barSeconds (check.bind PreTradeCheck.confirmedSide)
          (check.bind PreTradeCheck.regime)

/-- Propose a trade and have it sized (pipeline.py:285–324, 362–406). -/
def propose (proposal : TradeProposal) (exitReason : Option ExitReason)
    (check : Option PreTradeCheck) (features : AssetFeatureVector)
    (divergences : List PriceDivergence) : PipelineResult :=
  let risk := p.riskEngine.evaluate proposal portfolio (some features) i.now
  { acceptedMarketData := true
    rejectionReasons := []
    featureVector := some features
    pretradeCheck := check
    proposal := some proposal
    riskResult := some risk
    paperOrder := paperOrderOf proposal risk exitReason.isSome
    divergences := divergences
    exitReason := exitReason }

/-- `_build_exit_result` (pipeline.py:352–406). -/
def proposeExit (signal : ExitSignal) (check : Option PreTradeCheck)
    (features : AssetFeatureVector) (divergences : List PriceDivergence) :
    Except PipelineError PipelineResult :=
  if h : 0 < signal.requestedNotionalUsd then
    .ok (p.propose i portfolio
      { decisionId := i.decisionId
        strategyId := exitStrategyId signal.reason
        asset := signal.asset
        side := signal.side
        confidence := 1
        requestedNotionalUsd := signal.requestedNotionalUsd
        confidence_bounds := certain_bounds
        requested_pos := h }
      (some signal.reason) check features divergences)
  else .error (.invalidField "requested_notional_usd")

/-- `promote_universe_allows` (config.py:620–625). -/
def promoteUniverseAllows : Bool :=
  match p.promoteUniverse with
  | none => true
  | some symbols =>
    symbols.contains (Text.upper (String.ofList (Text.strip i.tick.symbol.toList)))

/-- The gates between the price exits and the pre-trade gate
(pipeline.py:193–231). -/
def gateReason : Option String :=
  let intelligence := i.ownIntelligence
  if !p.promoteUniverseAllows i then some "promote_universe_excluded"
  else if intelligence.any ExternalIntelligence.providerUnavailable then
    some "intelligence_provider_unavailable"
  else if p.requireExternalIntelligence && intelligence.all ExternalIntelligence.isEmpty then
    some "no_external_intelligence"
  else if p.blockOnAdverseNews && intelligence.any ExternalIntelligence.adverseEvent then
    some "adverse_news_event"
  else none

/-- `_onchain_regime_rejection` (pipeline.py:409–422). -/
def onchainRegimeRejection (side : Side) : Option String :=
  if !p.onchainRegimeGate ∨ side ≠ .buy then none
  else
    match i.ownIntelligence.bind ExternalIntelligence.mvrvZPercentile with
    | none => some "onchain_regime_unavailable"
    | some percentile =>
      if p.onchainRegimeMaxPercentile < percentile then some "onchain_regime_blocked" else none

/-- An entry, once its side is fixed (pipeline.py:270–324): under a pre-trade
check with its confidence, else with an even one. -/
def enter (side : Side) (check : Option PreTradeCheck) (features : AssetFeatureVector)
    (divergences : List PriceDivergence) : Except PipelineError PipelineResult :=
  match p.onchainRegimeRejection i side with
  | some reason => .ok (.withheld features divergences check [reason])
  | none =>
    if h : 0 < portfolio.navUsd * p.demonstrationNotionalPct then
      .ok (p.propose i portfolio
        { decisionId := i.decisionId
          strategyId := "vertical-slice-v1"
          asset := i.tick.asset
          side := side
          confidence := (check.map PreTradeCheck.confidence).getD (1 / 2)
          requestedNotionalUsd := portfolio.navUsd * p.demonstrationNotionalPct
          confidence_bounds := checkConfidence_bounds check
          requested_pos := h }
        none check features divergences)
    else .error (.invalidField "requested_notional_usd")

/-- The pre-trade gate, and an entry on the side it confirms
(pipeline.py:236–268). -/
def assessPretrade (features : AssetFeatureVector) (divergences : List PriceDivergence)
    (history : CandleHistory) : Except PipelineError PipelineResult :=
  let check := some history.pretrade
  -- the exit rules again, now with the ensemble's side and regime
  match p.exitSignal i portfolio check with
  | .error e => .error e
  | .ok (some signal) => p.proposeExit i portfolio signal check features divergences
  | .ok none =>
    match history.pretrade.confirmedSide with
    | some side =>
      if history.pretrade.passed then p.enter i portfolio side check features divergences
      else .ok (.withheld features divergences check history.pretrade.reasons)
    | none => .ok (.withheld features divergences check history.pretrade.reasons)

/-- Everything after the features are built (pipeline.py:175–324). -/
def assess (features : AssetFeatureVector) (divergences : List PriceDivergence) :
    Except PipelineError PipelineResult :=
  match p.exitSignal i portfolio none with
  | .error e => .error e
  | .ok (some signal) => p.proposeExit i portfolio signal none features divergences
  | .ok none =>
    match p.gateReason i with
    | some reason => .ok (.withheld features divergences none [reason])
    | none =>
      if p.pretradeGate then
        match i.candles with
        | none => .ok (.withheld features divergences none ["missing_candle_history"])
        | some history => p.assessPretrade i portfolio features divergences history
      else p.enter i portfolio .buy none features divergences

/-- `process` (pipeline.py:84–315). -/
def process : Except PipelineError PipelineResult :=
  match p.validate i with
  | .error e => .error e
  | .ok (reasons, divergences) =>
    if reasons ≠ [] then .ok ⟨false, reasons, none, none, none, none, none, divergences, none⟩
    else if h : i.tick.spreadBps < 0 then .error (.invalidField "spread_bps")
    else
      match p.features i (not_lt.mp h) with
      | .error e => .error e
      | .ok features => p.assess i portfolio features divergences

variable {p : VerticalSlicePipeline} {i : MarketInput} {portfolio : PortfolioSnapshot}

/-! ## What a cycle can come to -/

/-- The three ends of a cycle: nothing is proposed, an entry is, or an exit. -/
inductive Produced (p : VerticalSlicePipeline) (i : MarketInput) (portfolio : PortfolioSnapshot) :
    PipelineResult → Prop
  | silent {r : PipelineResult} (proposal : r.proposal = none) (paperOrder : r.paperOrder = none)
      (exitReason : r.exitReason = none) : Produced p i portfolio r
  | entry {proposal : TradeProposal} {check : Option PreTradeCheck} {features : AssetFeatureVector}
      {divergences : List PriceDivergence} (asset : proposal.asset = i.tick.asset)
      (strategy : proposal.strategyId = "vertical-slice-v1") :
      Produced p i portfolio (p.propose i portfolio proposal none check features divergences)
  | exit {check check' : Option PreTradeCheck} {signal : ExitSignal}
      {features : AssetFeatureVector} {divergences : List PriceDivergence} {r : PipelineResult}
      (fired : p.exitSignal i portfolio check = .ok (some signal))
      (proposed : p.proposeExit i portfolio signal check' features divergences = .ok r) :
      Produced p i portfolio r

theorem produced_of_enter {side : Side} {check : Option PreTradeCheck}
    {features : AssetFeatureVector} {divergences : List PriceDivergence} {r : PipelineResult}
    (h : p.enter i portfolio side check features divergences = .ok r) :
    Produced p i portfolio r := by
  unfold enter at h
  split at h
  · cases h
    exact .silent rfl rfl rfl
  split at h
  · cases h
    exact .entry rfl rfl
  · cases h

theorem produced_of_assessPretrade {history : CandleHistory} {features : AssetFeatureVector}
    {divergences : List PriceDivergence} {r : PipelineResult}
    (h : p.assessPretrade i portfolio features divergences history = .ok r) :
    Produced p i portfolio r := by
  unfold assessPretrade at h
  dsimp only at h
  split at h
  · cases h
  · exact .exit ‹_› h
  split at h
  · split at h
    · exact produced_of_enter h
    · cases h
      exact .silent rfl rfl rfl
  · cases h
    exact .silent rfl rfl rfl

theorem produced_of_process {r : PipelineResult} (h : p.process i portfolio = .ok r) :
    Produced p i portfolio r := by
  unfold process at h
  split at h
  · cases h
  split at h
  · cases h
    exact .silent rfl rfl rfl
  split at h
  · cases h
  split at h
  · cases h
  unfold assess at h
  -- the price exits, the gates, the pre-trade gate, the entry
  split at h
  · cases h
  · exact .exit ‹_› h
  split at h
  · cases h
    exact .silent rfl rfl rfl
  split at h
  · split at h
    · cases h
      exact .silent rfl rfl rfl
    · exact produced_of_assessPretrade h
  · exact produced_of_enter h

/-- An exit that could be proposed is the proposal of its signal. -/
theorem proposeExit_eq {signal : ExitSignal} {check : Option PreTradeCheck}
    {features : AssetFeatureVector} {divergences : List PriceDivergence} {r : PipelineResult}
    (h : p.proposeExit i portfolio signal check features divergences = .ok r) :
    ∃ proposal, proposal.strategyId = exitStrategyId signal.reason ∧
      proposal.asset = signal.asset ∧ proposal.side = signal.side ∧
      proposal.requestedNotionalUsd = signal.requestedNotionalUsd ∧
      r = p.propose i portfolio proposal (some signal.reason) check features divergences := by
  unfold proposeExit at h
  split at h
  · exact ⟨_, rfl, rfl, rfl, rfl, (Except.ok.inj h).symm⟩
  · cases h

/-- An order has its proposal, with the features it was decided on. -/
theorem proposed_of_paperOrder {r : PipelineResult} {intent : PaperOrderIntent}
    (h : Produced p i portfolio r) (horder : r.paperOrder = some intent) :
    r.proposal.isSome ∧ r.featureVector.isSome := by
  cases h with
  | silent _ hnone _ => cases hnone.symm.trans horder
  | entry _ _ => exact ⟨rfl, rfl⟩
  | exit _ hproposed =>
    obtain ⟨proposal, -, -, -, -, rfl⟩ := proposeExit_eq hproposed
    exact ⟨rfl, rfl⟩

/-- A result with an exit reason is one whose proposal says so. -/
theorem proposesExit_of_produced {r : PipelineResult} (h : Produced p i portfolio r) :
    r.proposesExit = r.exitReason.isSome := by
  cases h with
  | silent hproposal _ hexit =>
    rw [PipelineResult.proposesExit, hproposal, hexit]
    rfl
  | @entry proposal _ _ _ _ hstrategy =>
    show isExitStrategyId proposal.strategyId = false
    rw [hstrategy]
    decide +kernel
  | exit _ hproposed =>
    obtain ⟨proposal, hstrategy, -, -, -, rfl⟩ := proposeExit_eq hproposed
    show isExitStrategyId proposal.strategyId = true
    rw [hstrategy]
    exact isExitStrategyId_exitStrategyId _

/-! ## What an order intent is bound by -/

/-- **Every result is a verdict**: without a proposal there is no order, and with
one the order is what the risk engine makes of it. -/
theorem verdict_of_process {r : PipelineResult} (h : p.process i portfolio = .ok r) :
    (r.proposal = none ∧ r.paperOrder = none) ∨
      ∃ proposal features, r.proposal = some proposal ∧
        r.riskResult = some (p.riskEngine.evaluate proposal portfolio (some features) i.now) ∧
        r.paperOrder = paperOrderOf proposal
          (p.riskEngine.evaluate proposal portfolio (some features) i.now) r.exitReason.isSome := by
  cases produced_of_process h with
  | silent hproposal horder _ => exact .inl ⟨hproposal, horder⟩
  | entry _ _ => exact .inr ⟨_, _, rfl, rfl, rfl⟩
  | exit _ hproposed =>
    obtain ⟨proposal, -, -, -, -, rfl⟩ := proposeExit_eq hproposed
    exact .inr ⟨proposal, _, rfl, rfl, rfl⟩

/-- A halted engine approves no order. -/
theorem paperOrder_of_halted {r : PipelineResult} (h : p.process i portfolio = .ok r)
    (hhalted : p.riskEngine.halted = true) : r.paperOrder = none := by
  rcases verdict_of_process h with ⟨-, hnone⟩ | ⟨proposal, features, -, -, horder⟩
  · exact hnone
  rw [horder, paperOrderOf, dif_neg]
  rintro ⟨hallowed, -⟩
  rcases p.riskEngine.evaluate_cases proposal portfolio (some features) i.now with
    ⟨hreject, -⟩ | ⟨hrunning, -⟩
  · exact hallowed hreject
  · cases hhalted.symm.trans hrunning

end VerticalSlicePipeline

end TraderStack
