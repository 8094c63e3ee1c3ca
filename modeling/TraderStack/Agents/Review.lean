import TraderStack.Lib.Machine
import TraderStack.Service.Pipeline

/-!
# The meta-agent's review (agents/review.py, agents/meta.py)

Between the pipeline's result and its execution stands one bounded review: a
model is shown the evidence of the cycle and approves or refuses it. In veto
mode a refusal, and every failure to review, takes the order away; an approval
may only move the confidence. Identical evidence is not asked about again while
its review is fresh, and a daily budget bounds what is asked.

What the model does is an input: it answers, it does not come back in time, or
the call raises (a malformed answer is a validation error). The digest of the
evidence is a parameter, the specialists another; the metrics are left out.

The monotonic clock is read before and after the call; a stretch of code without
a suspension reads it once.
-/

namespace TraderStack

open Lib

/-! ## Records -/

/-- `MetaAgentMode` (review.py:53–56). -/
inductive MetaAgentMode where
  | off
  | advisory
  | veto
deriving DecidableEq, Repr

/-- `MetaAgentDecision` (meta.py:12–27). -/
structure MetaAgentDecision where
  approve : Bool
  confidenceDelta : ℚ
  rationale : String
  riskFlags : List String
  confidenceDelta_bounds : -(15 / 100) ≤ confidenceDelta ∧ confidenceDelta ≤ 15 / 100
  rationale_length : rationale.length ≤ 2000
  riskFlags_length : riskFlags.length ≤ 16

/-- `MetaAgentCall` (meta.py:82–92). -/
structure MetaAgentCall where
  decision : MetaAgentDecision
  model : Option String
  inputTokens : ℕ
  outputTokens : ℕ

/-- What the model does when it is called. -/
inductive ModelBehaviour where
  | answers (call : MetaAgentCall)
  | timesOut
  /-- With the error's type and text. -/
  | raises (error : String)

/-- `StrategySignal` (strategies.py:19–27). -/
structure StrategySignal where
  strategyId : String
  symbol : String
  side : Option Side
  score : ℚ
  confidence : ℚ
  regime : Regime
  rationale : String

/-- `EvidencePacket` (meta.py:62–76). `readings` stands for the further features
and gate metrics the packet carries and no modelled function reads. -/
structure EvidencePacket where
  asset : String
  featureVector : AssetFeatureVector
  strategySignal : StrategySignal
  requestedNotionalUsd : ℚ
  specialistSignals : List StrategySignal
  pretrade : Option PreTradeCheck
  risk : Option RiskResult
  readings : String

/-- `MetaAgentReview` (review.py:59–86). -/
structure MetaAgentReview where
  mode : MetaAgentMode
  called : Bool
  cached : Bool
  approved : Option Bool
  confidenceDelta : Option ℚ
  rationale : Option String
  riskFlags : List String
  promptVersion : String
  promptHash : String
  model : Option String
  latencySeconds : Option ℚ
  inputTokens : ℕ
  outputTokens : ℕ
  estimatedCostUsd : ℚ
  error : Option String
  evidenceDigest : Option String
  suppressedOrder : Bool
  suppressionReason : Option String
  appliedConfidence : Option ℚ
  specialistSignals : List StrategySignal

/-- `usable` (review.py:84–86): a decision came back and validated. -/
def MetaAgentReview.usable (v : MetaAgentReview) : Bool :=
  v.error.isNone && v.approved.isSome

/-! ## Budget and cache -/

/-- `DailyBudget` (review.py:92–119). -/
structure DailyBudget where
  maxCalls : ℕ
  maxTokens : ℕ
  day : Option ℤ
  calls : ℕ
  tokens : ℕ

namespace DailyBudget

/-- `_roll`: a new UTC day starts from nothing. -/
def roll (b : DailyBudget) (now : Time) : DailyBudget :=
  if b.day ≠ some (utcDate now) then { b with day := some (utcDate now), calls := 0, tokens := 0 }
  else b

/-- `exhausted`. -/
def exhausted (b : DailyBudget) (now : Time) : Option String × DailyBudget :=
  let b := b.roll now
  (if 0 < b.maxCalls ∧ b.maxCalls ≤ b.calls then some "daily_call_budget_exhausted"
    else if 0 < b.maxTokens ∧ b.maxTokens ≤ b.tokens then some "daily_token_budget_exhausted"
    else none, b)

/-- `record`. -/
def record (b : DailyBudget) (tokens : ℕ) (now : Time) : DailyBudget :=
  let b := b.roll now
  { b with calls := b.calls + 1, tokens := b.tokens + tokens }

end DailyBudget

/-- `EvidenceCache` (review.py:122–148): the reviews by evidence digest, each with
the moment it was stored. -/
structure EvidenceCache where
  ttlSeconds : ℚ
  entries : Dict String (ℚ × MetaAgentReview)

namespace EvidenceCache

/-- `get`: a review that is too old is dropped. -/
def get (c : EvidenceCache) (digest : String) (clock : ℚ) :
    Option MetaAgentReview × EvidenceCache :=
  if c.ttlSeconds ≤ 0 then (none, c)
  else
    match c.entries.get? digest with
    | none => (none, c)
    | some (storedAt, review) =>
      if c.ttlSeconds < clock - storedAt then
        (none, { c with entries := c.entries.erase digest })
      else (some review, c)

/-- `put`: only a usable review is stored. -/
def put (c : EvidenceCache) (digest : String) (review : MetaAgentReview) (clock : ℚ) :
    EvidenceCache :=
  if c.ttlSeconds ≤ 0 ∨ !review.usable then c
  else { c with entries := c.entries.set digest (clock, review) }

/-- Looking a digest up adds nothing to the cache. -/
theorem get_spec (c : EvidenceCache) (digest : String) (clock : ℚ) :
    (c.get digest clock).2.ttlSeconds = c.ttlSeconds ∧
      (∀ d x, (c.get digest clock).2.entries.get? d = some x → c.entries.get? d = some x) ∧
      ∀ review, (c.get digest clock).1 = some review → ∃ storedAt,
        c.entries.get? digest = some (storedAt, review) ∧ clock - storedAt ≤ c.ttlSeconds := by
  have hnothing : ∀ {P : MetaAgentReview → Prop}, ∀ review, none = some review → P review :=
    fun _ h => absurd h (Option.some_ne_none _).symm
  unfold get
  split
  · exact ⟨rfl, fun _ _ h => h, hnothing⟩
  split
  · exact ⟨rfl, fun _ _ h => h, hnothing⟩
  · rename_i storedAt review hentry
    split
    · exact ⟨rfl, fun _ _ h => Dict.get?_of_erase h, hnothing⟩
    · rename_i hfresh
      refine ⟨rfl, fun _ _ h => h, ?_⟩
      rintro _ ⟨⟩
      exact ⟨storedAt, hentry, not_lt.mp hfresh⟩

theorem put_spec (c : EvidenceCache) (digest : String) (review : MetaAgentReview)
    (clock : ℚ) :
    (c.put digest review clock).ttlSeconds = c.ttlSeconds ∧
      ∀ d x, (c.put digest review clock).entries.get? d = some x →
        c.entries.get? d = some x ∨ d = digest ∧ x = (clock, review) := by
  unfold put
  split
  · exact ⟨rfl, fun _ _ h => .inl h⟩
  · refine ⟨rfl, fun d x h => ?_⟩
    rw [Dict.get?_set] at h
    split at h
    · rename_i hd
      exact .inr ⟨hd, (Option.some.inj h).symm⟩
    · exact .inl h

end EvidenceCache

/-! ## The reviewer -/

/-- How the client reports: a decision alone, or a decision with what it cost
(`UsageReportingMetaAgentClient`). -/
inductive MetaAgentClient where
  | bare
  | usageReporting
deriving DecidableEq, Repr

/-- `MetaAgentReviewer` (review.py:237–438). The specialists are a function of
what they are shown. -/
structure MetaAgentReviewer where
  client : Option MetaAgentClient
  mode : MetaAgentMode
  model : String
  timeoutSeconds : String
  promptVersion : String
  promptHash : String
  committee : Option (AssetFeatureVector → Regime → String → List StrategySignal)
  evidenceDigest : EvidencePacket → String
  inputCostPerMtok : ℚ
  outputCostPerMtok : ℚ

/-- What the reviewer keeps from one cycle to the next. -/
structure ReviewState where
  cache : EvidenceCache
  budget : DailyBudget

/-- One call of the reviewer: the result under review with the signal and the
thesis of its proposal, the clocks, and what the model does if it is asked. -/
structure ReviewRequest where
  symbol : String
  result : PipelineResult
  signalId : Option String
  thesis : String
  readings : String
  now : Time
  startedAt : ℚ
  finishedAt : ℚ
  behaviour : ModelBehaviour

namespace MetaAgentReviewer

variable (r : MetaAgentReviewer) (q : ReviewRequest)

/-- `_record` (review.py:256–290), of a review that did not take place. -/
def record : MetaAgentReview where
  mode := r.mode
  called := false
  cached := false
  approved := none
  confidenceDelta := none
  rationale := none
  riskFlags := []
  promptVersion := r.promptVersion
  promptHash := r.promptHash
  model := some r.model
  latencySeconds := none
  inputTokens := 0
  outputTokens := 0
  estimatedCostUsd := 0
  error := none
  evidenceDigest := none
  suppressedOrder := false
  suppressionReason := none
  appliedConfidence := none
  specialistSignals := []

/-- `build_evidence_packet` (review.py:190–227). -/
def buildEvidencePacket : Option EvidencePacket :=
  match q.result.proposal, q.result.featureVector with
  | some proposal, some vector =>
    let regime := (q.result.pretradeCheck.bind PreTradeCheck.regime).getD .range
    let direction : ℚ :=
      match proposal.side with
      | .buy => 1
      | .sell => -1
    some
      { asset := Text.upper proposal.asset
        featureVector := vector
        strategySignal :=
          { strategyId := q.signalId.getD proposal.strategyId
            symbol := q.symbol
            side := some proposal.side
            score := max (-1) (min 1 (proposal.confidence * direction))
            confidence := proposal.confidence
            regime := regime
            rationale := q.thesis }
        requestedNotionalUsd := proposal.requestedNotionalUsd
        specialistSignals := r.committee.elim [] fun evaluate => evaluate vector regime q.symbol
        pretrade := q.result.pretradeCheck
        risk := q.result.riskResult
        readings := q.readings }
  | _, _ => none

/-- `_call` (review.py:425–432): a bare client's decision costs nothing. -/
def reportOf (call : MetaAgentCall) : MetaAgentCall :=
  match r.client with
  | some .usageReporting => call
  | _ => { decision := call.decision, model := some r.model, inputTokens := 0, outputTokens := 0 }

/-- `_cost` (review.py:434–438). -/
def cost (call : MetaAgentCall) : ℚ :=
  (call.inputTokens * r.inputCostPerMtok + call.outputTokens * r.outputCostPerMtok) / 1000000

/-- What precedes the call of the model: the review settled without it, or the
packet it is asked about. -/
inductive Screening where
  | settled (review : MetaAgentReview)
  | ask (packet : EvidencePacket)

/-- The first half of `review` (review.py:299–335). -/
def screen (s : ReviewState) : Screening × ReviewState :=
  if r.mode = .off ∨ r.client = none then (.settled r.record, s)
  -- withholding an exit would keep the risk
  else if q.result.proposesExit then (.settled r.record, s)
  else
    match r.buildEvidencePacket q with
    | none => (.settled r.record, s)
    | some packet =>
      let digest := r.evidenceDigest packet
      match s.cache.get digest q.startedAt with
      | (some review, cache) =>
        (.settled { review with cached := true, specialistSignals := packet.specialistSignals },
          { s with cache := cache })
      | (none, cache) =>
        match s.budget.exhausted q.now with
        | (some exhausted, budget) =>
          (.settled
            { r.record with
              error := some exhausted
              evidenceDigest := some digest
              specialistSignals := packet.specialistSignals },
            { cache := cache, budget := budget })
        | (none, budget) => (.ask packet, { cache := cache, budget := budget })

/-- The review of a call that came to nothing: it counts against the budget, and
nothing is stored. -/
def failed (packet : EvidencePacket) (error : String) (s : ReviewState) :
    MetaAgentReview × ReviewState :=
  ({ r.record with
      called := true
      latencySeconds := some (q.finishedAt - q.startedAt)
      error := some error
      evidenceDigest := some (r.evidenceDigest packet)
      specialistSignals := packet.specialistSignals },
    { s with budget := s.budget.record 0 q.now })

/-- The review a completed call gives. -/
def answered (packet : EvidencePacket) (call : MetaAgentCall) : MetaAgentReview :=
  { r.record with
    called := true
    approved := some call.decision.approve
    confidenceDelta := some call.decision.confidenceDelta
    rationale := some call.decision.rationale
    riskFlags := call.decision.riskFlags
    model := some (call.model.getD r.model)
    latencySeconds := some (q.finishedAt - q.startedAt)
    inputTokens := call.inputTokens
    outputTokens := call.outputTokens
    estimatedCostUsd := r.cost call
    evidenceDigest := some (r.evidenceDigest packet)
    specialistSignals := packet.specialistSignals }

/-- The second half of `review` (review.py:337–387): the call. -/
def ask (packet : EvidencePacket) (s : ReviewState) : MetaAgentReview × ReviewState :=
  match q.behaviour with
  | .timesOut => r.failed q packet ("timeout after " ++ r.timeoutSeconds ++ "s") s
  | .raises error => r.failed q packet error s
  | .answers call =>
    let call := r.reportOf call
    let review := r.answered q packet call
    (review,
      { cache := s.cache.put (r.evidenceDigest packet) review q.finishedAt
        budget := s.budget.record (call.inputTokens + call.outputTokens) q.now })

/-- `review` (review.py:299–387). -/
def review (s : ReviewState) : MetaAgentReview × ReviewState :=
  match r.screen q s with
  | (.settled review, s) => (review, s)
  | (.ask packet, s) => r.ask q packet s

/-- `_suppress` (review.py:412–423). -/
def suppress (result : PipelineResult) (review : MetaAgentReview) (reason : String) :
    PipelineResult × MetaAgentReview :=
  ({ result with
      paperOrder := none
      rejectionReasons := result.rejectionReasons ++ [reason] },
    { review with suppressedOrder := true, suppressionReason := some reason })

/-- `max(0.0, min(1.0, confidence + delta))` is a confidence. -/
theorem clamp_bounds (x : ℚ) : 0 ≤ max 0 (min 1 x) ∧ max 0 (min 1 x) ≤ 1 :=
  ⟨le_max_left _ _, max_le zero_le_one (min_le_left _ _)⟩

/-- `apply` (review.py:389–410). -/
def apply (result : PipelineResult) (review : MetaAgentReview) :
    PipelineResult × MetaAgentReview :=
  match result.proposal with
  | none => (result, review)
  | some proposal =>
    if r.mode ≠ .veto then (result, review)
    else if isExitStrategyId proposal.strategyId then (result, review)
    else if !review.usable then suppress result review "meta_agent_unavailable"
    else if review.approved = some false then suppress result review "meta_agent_veto"
    else
      let adjusted := max 0 (min 1 (proposal.confidence + review.confidenceDelta.getD 0))
      ({ result with
          proposal := some
            { proposal with
              confidence := adjusted
              confidence_bounds := clamp_bounds _ } },
        { review with appliedConfidence := some adjusted })

/-- `run` (review.py:292–297). -/
def run (s : ReviewState) : (PipelineResult × MetaAgentReview) × ReviewState :=
  let (review, s) := r.review q s
  (r.apply q.result review, s)

end MetaAgentReviewer

/-! ## What a review leaves -/

/-- The same trade, whatever the confidence in it. -/
structure TradeProposal.SameTrade (a b : TradeProposal) : Prop where
  decisionId : a.decisionId = b.decisionId
  strategyId : a.strategyId = b.strategyId
  asset : a.asset = b.asset
  side : a.side = b.side
  requested : a.requestedNotionalUsd = b.requestedNotionalUsd

theorem TradeProposal.SameTrade.refl (a : TradeProposal) : a.SameTrade a :=
  ⟨rfl, rfl, rfl, rfl, rfl⟩

/-- A review of `input` that gave `output` only withheld: the risk result and the
trade are the same, the order is the same or gone, and nothing else changed but
the reasons. -/
structure Withheld (input output : PipelineResult) : Prop where
  riskResult : output.riskResult = input.riskResult
  proposal : Option.Rel TradeProposal.SameTrade output.proposal input.proposal
  paperOrder : output.paperOrder = input.paperOrder ∨ output.paperOrder = none
  others : { output with
    rejectionReasons := input.rejectionReasons
    proposal := input.proposal
    paperOrder := input.paperOrder } = input

theorem Withheld.refl (r : PipelineResult) : Withheld r r where
  riskResult := rfl
  proposal := by
    cases r.proposal with
    | none => exact .none
    | some proposal => exact .some (.refl proposal)
  paperOrder := .inl rfl
  others := rfl

namespace MetaAgentReviewer

variable {r : MetaAgentReviewer} {q : ReviewRequest} {s : ReviewState}

theorem withheld_apply (result : PipelineResult) (review : MetaAgentReview) :
    Withheld result (r.apply result review).1 := by
  cases hproposal : result.proposal with
  | none =>
    unfold apply
    rw [hproposal]
    exact .refl result
  | some proposal =>
    unfold apply
    rw [hproposal]
    dsimp only
    have hsuppressed : ∀ reason, Withheld result (suppress result review reason).1 := fun reason =>
      { Withheld.refl result with
        paperOrder := .inr rfl
        others := rfl }
    split
    · exact .refl result
    split
    · exact .refl result
    split
    · exact hsuppressed _
    split
    · exact hsuppressed _
    · -- an approval moves the confidence alone
      exact
        { riskResult := rfl
          proposal := by
            rw [hproposal]
            exact .some ⟨rfl, rfl, rfl, rfl, rfl⟩
          paperOrder := .inl rfl
          others := rfl }

/-- A protective exit passes the review as it came. -/
theorem apply_of_exit {result : PipelineResult} (hexit : result.proposesExit = true)
    (review : MetaAgentReview) : r.apply result review = (result, review) := by
  unfold apply
  split
  · rfl
  · rename_i proposal hproposal
    have hid : isExitStrategyId proposal.strategyId = true := by
      rwa [PipelineResult.proposesExit, hproposal] at hexit
    rw [if_pos hid, ite_self]

/-- In veto mode an entry's order survives a usable approval and nothing else. -/
theorem approved_of_survives {result : PipelineResult} {review : MetaAgentReview}
    {intent : PaperOrderIntent} (hveto : r.mode = .veto)
    (hproposed : result.proposal.isSome = true) (hentry : result.proposesExit = false)
    (horder : (r.apply result review).1.paperOrder = some intent) :
    review.approved = some true ∧ review.error = none := by
  obtain ⟨proposal, hproposal⟩ := Option.isSome_iff_exists.mp hproposed
  have hid : ¬isExitStrategyId proposal.strategyId = true := by
    rw [PipelineResult.proposesExit, hproposal] at hentry
    exact Bool.not_eq_true _ ▸ hentry
  unfold apply at horder
  rw [hproposal] at horder
  dsimp only at horder
  rw [if_neg (not_not.mpr hveto), if_neg hid] at horder
  split at horder
  · cases horder
  split at horder
  · cases horder
  rename_i husable hrefused
  rw [MetaAgentReview.usable, Bool.not_eq_true', Bool.not_eq_false, Bool.and_eq_true,
    Option.isNone_iff_eq_none, Option.isSome_iff_exists] at husable
  obtain ⟨herror, approved, happroved⟩ := husable
  cases approved with
  | true => exact ⟨happroved, herror⟩
  | false => exact absurd happroved hrefused

/-! ## Where an approval comes from -/

/-- An approval of the model: the digest of the packet it was shown, and when it
was stored. -/
structure Approval where
  digest : String
  answeredAt : ℚ

/-- The approval the model gives in this call, if it is asked and gives one. -/
def approval (r : MetaAgentReviewer) (q : ReviewRequest) (s : ReviewState) : Option Approval :=
  match (r.screen q s).1, q.behaviour with
  | .ask packet, .answers call =>
    if call.decision.approve then some ⟨r.evidenceDigest packet, q.finishedAt⟩ else none
  | _, _ => none

/-- The reviewer's state with every approval the model ever gave. -/
structure History where
  state : ReviewState
  approvals : List Approval

/-- One call of `run`. -/
def step (r : MetaAgentReviewer) (w : History) (q : ReviewRequest) : History where
  state := (r.run q w.state).2
  approvals := w.approvals ++ (r.approval q w.state).toList

/-- A new reviewer: an empty cache, and a budget. -/
def fresh (ttlSeconds : ℚ) (budget : DailyBudget) : History where
  state :=
    { cache := { ttlSeconds := ttlSeconds, entries := Dict.empty }
      budget := budget }
  approvals := []

/-- Every approval in the cache was given. -/
structure CacheApproved (ttlSeconds : ℚ) (w : History) : Prop where
  ttl : w.state.cache.ttlSeconds = ttlSeconds
  given : ∀ {digest storedAt review},
    w.state.cache.entries.get? digest = some (storedAt, review) → review.approved = some true →
      ⟨digest, storedAt⟩ ∈ w.approvals

theorem Screening.settled_ne_ask {review : MetaAgentReview} {packet : EvidencePacket} :
    Screening.settled review ≠ .ask packet := nofun

/-- What screening does: it adds nothing to the cache, asks about the packet of
the cycle, and settles with an approval only from the cache. -/
structure Screened (r : MetaAgentReviewer) (q : ReviewRequest) (s : ReviewState)
    (out : Screening × ReviewState) : Prop where
  ttl : out.2.cache.ttlSeconds = s.cache.ttlSeconds
  entries : ∀ d x, out.2.cache.entries.get? d = some x → s.cache.entries.get? d = some x
  asks : ∀ packet, out.1 = .ask packet → r.buildEvidencePacket q = some packet
  settles : ∀ review, out.1 = .settled review → review.approved = some true →
    ∃ packet storedAt stored, r.buildEvidencePacket q = some packet ∧
      s.cache.entries.get? (r.evidenceDigest packet) = some (storedAt, stored) ∧
      stored.approved = some true ∧ q.startedAt - storedAt ≤ s.cache.ttlSeconds

theorem screened (r : MetaAgentReviewer) (q : ReviewRequest) (s : ReviewState) :
    Screened r q s (r.screen q s) := by
  have hskip : Screened r q s (.settled r.record, s) :=
    { ttl := rfl
      entries := fun _ _ h => h
      asks := fun _ h => absurd h Screening.settled_ne_ask
      settles := by
        rintro _ ⟨⟩ happroved
        cases happroved }
  unfold screen
  split
  · exact hskip
  split
  · exact hskip
  split
  · exact hskip
  · rename_i packet hpacket
    obtain ⟨httl, hentries, hfound⟩ :=
      EvidenceCache.get_spec s.cache (r.evidenceDigest packet) q.startedAt
    dsimp only
    split
    · rename_i review cache hget
      rw [hget] at httl hentries hfound
      refine ⟨httl, hentries, fun _ h => absurd h Screening.settled_ne_ask, ?_⟩
      rintro _ ⟨⟩ happroved
      obtain ⟨storedAt, hentry, hfresh⟩ := hfound review rfl
      exact ⟨packet, storedAt, review, hpacket, hentry, happroved, hfresh⟩
    · rename_i cache hget
      rw [hget] at httl hentries
      split
      · refine ⟨httl, hentries, fun _ h => absurd h Screening.settled_ne_ask, ?_⟩
        rintro _ ⟨⟩ happroved
        cases happroved
      · refine ⟨httl, hentries, ?_, fun _ h => absurd h.symm Screening.settled_ne_ask⟩
        rintro _ ⟨⟩
        exact hpacket

@[simp] theorem reportOf_decision (call : MetaAgentCall) :
    (r.reportOf call).decision = call.decision := by
  unfold reportOf
  split <;> rfl

variable {w : History} {ttlSeconds : ℚ}

theorem cacheApproved_fresh (ttlSeconds : ℚ) (budget : DailyBudget) :
    CacheApproved ttlSeconds (fresh ttlSeconds budget) where
  ttl := rfl
  given := by
    intro digest storedAt review hentry
    cases hentry

/-- An approval enters the cache only when the model gives it. -/
theorem cacheApproved_step (h : CacheApproved ttlSeconds w) (q : ReviewRequest) :
    CacheApproved ttlSeconds (r.step w q) := by
  obtain ⟨httl, hentries, -, -⟩ := screened r q w.state
  have hold : ∀ {digest storedAt review},
      w.state.cache.entries.get? digest = some (storedAt, review) → review.approved = some true →
        ⟨digest, storedAt⟩ ∈ (r.step w q).approvals :=
    fun hentry happroved => List.mem_append_left _ (h.given hentry happroved)
  have hstate : (r.step w q).state = (r.review q w.state).2 := rfl
  cases hscreen : r.screen q w.state with
  | mk out s' =>
    rw [hscreen] at httl hentries
    have hkept : (r.step w q).state.cache = s'.cache → CacheApproved ttlSeconds (r.step w q) :=
      fun hcache =>
        { ttl := by rw [hcache, httl, h.ttl]
          given := fun hentry => hold (hentries _ _ (hcache ▸ hentry)) }
    rw [review, hscreen] at hstate
    cases out with
    | settled review => exact hkept (congrArg ReviewState.cache hstate)
    | ask packet =>
      dsimp only at hstate
      cases hbehaviour : q.behaviour with
      | timesOut =>
        refine hkept ?_
        rw [hstate, ask, hbehaviour]
        rfl
      | raises error =>
        refine hkept ?_
        rw [hstate, ask, hbehaviour]
        rfl
      | answers call =>
        have hcache : (r.step w q).state.cache =
            s'.cache.put (r.evidenceDigest packet) (r.answered q packet (r.reportOf call))
              q.finishedAt := by
          rw [hstate, ask, hbehaviour]
        obtain ⟨hput, hadded⟩ := EvidenceCache.put_spec s'.cache (r.evidenceDigest packet)
          (r.answered q packet (r.reportOf call)) q.finishedAt
        refine ⟨by rw [hcache, hput, httl, h.ttl], fun hentry happroved => ?_⟩
        rw [hcache] at hentry
        rcases hadded _ _ hentry with hkeep | ⟨rfl, hnew⟩
        · exact hold (hentries _ _ hkeep) happroved
        · -- the entry this call stored
          obtain ⟨rfl, rfl⟩ := Prod.mk.inj hnew
          have happrove : call.decision.approve = true := by
            rw [← reportOf_decision (r := r)]
            exact Option.some.inj happroved
          refine List.mem_append_right _ ?_
          rw [approval, hscreen, hbehaviour]
          dsimp only
          rw [if_pos happrove]
          exact List.mem_singleton.mpr rfl

/-- An entry's order that survived the veto was approved now, or was found
approved and fresh. -/
theorem approved_of_run {intent : PaperOrderIntent} (hveto : r.mode = .veto)
    (hproposed : q.result.proposal.isSome = true) (hentry : q.result.proposesExit = false)
    (horder : (r.run q s).1.1.paperOrder = some intent) :
    ∃ packet, r.buildEvidencePacket q = some packet ∧
      (r.approval q s = some ⟨r.evidenceDigest packet, q.finishedAt⟩ ∨
        ∃ storedAt stored, s.cache.entries.get? (r.evidenceDigest packet) = some (storedAt, stored)
          ∧ stored.approved = some true ∧ q.startedAt - storedAt ≤ s.cache.ttlSeconds) := by
  have hsurvives : (r.apply q.result (r.review q s).1).1.paperOrder = some intent := horder
  obtain ⟨happroved, herror⟩ := approved_of_survives hveto hproposed hentry hsurvives
  obtain ⟨-, -, hasks, hsettles⟩ := screened r q s
  rw [review] at happroved herror
  cases hscreen : r.screen q s with
  | mk out s' =>
    rw [hscreen] at happroved herror hasks hsettles
    cases out with
    | settled review =>
      obtain ⟨packet, storedAt, stored, hpacket, hfound⟩ := hsettles review rfl happroved
      exact ⟨packet, hpacket, .inr ⟨storedAt, stored, hfound⟩⟩
    | ask packet =>
      refine ⟨packet, hasks packet rfl, .inl ?_⟩
      rw [approval, hscreen]
      dsimp only at happroved herror ⊢
      rw [ask] at happroved herror
      cases hbehaviour : q.behaviour with
      | timesOut =>
        rw [hbehaviour] at herror
        cases herror
      | raises error =>
        rw [hbehaviour] at herror
        cases herror
      | answers call =>
        rw [hbehaviour] at happroved
        have happrove : call.decision.approve = true := by
          rw [← reportOf_decision (r := r)]
          exact Option.some.inj happroved
        dsimp only
        rw [if_pos happrove]

theorem withheld_run (q : ReviewRequest) (s : ReviewState) :
    Withheld q.result (r.run q s).1.1 :=
  withheld_apply q.result (r.review q s).1

theorem cacheApproved_run (r : MetaAgentReviewer) (ttlSeconds : ℚ) (budget : DailyBudget)
    (earlier : List ReviewRequest) :
    CacheApproved ttlSeconds (Lib.run r.step (fresh ttlSeconds budget) earlier) :=
  run_invariant (I := CacheApproved ttlSeconds) (fun _ q h => cacheApproved_step h q) _ earlier
    (cacheApproved_fresh ttlSeconds budget)

/-- **The review can only withhold.** Whatever the configuration, the cache, the
budget and the model's behaviour, the risk result and the trade of a pipeline's
result come back as they went in, and its order comes back as it went in or not
at all. A protective exit keeps its order. In veto mode an entry's order comes
back only if the model approved a packet of the same digest in this call, or
earlier and within the cache's time to live. -/
theorem review_only_withholds (r : MetaAgentReviewer) {p : VerticalSlicePipeline}
    {i : MarketInput} {portfolio : PortfolioSnapshot} (q : ReviewRequest)
    (hresult : p.process i portfolio = .ok q.result) :
    (∀ s behaviour, Withheld q.result (r.run { q with behaviour := behaviour } s).1.1) ∧
      (q.result.exitReason.isSome = true → ∀ s behaviour,
        (r.run { q with behaviour := behaviour } s).1.1.paperOrder = q.result.paperOrder) ∧
      (r.mode = .veto → q.result.exitReason = none →
        ∀ ttlSeconds budget earlier behaviour intent,
          let q := { q with behaviour := behaviour }
          let w := Lib.run r.step (fresh ttlSeconds budget) earlier
          (r.run q w.state).1.1.paperOrder = some intent →
            ∃ packet, r.buildEvidencePacket q = some packet ∧
              (r.approval q w.state = some ⟨r.evidenceDigest packet, q.finishedAt⟩ ∨
                ∃ a ∈ w.approvals, a.digest = r.evidenceDigest packet ∧
                  q.startedAt - a.answeredAt ≤ ttlSeconds)) := by
  have hproduced := VerticalSlicePipeline.produced_of_process hresult
  have hexits := VerticalSlicePipeline.proposesExit_of_produced hproduced
  refine ⟨fun s behaviour => withheld_run { q with behaviour := behaviour } s, ?_, ?_⟩
  · intro hexit s behaviour
    show (r.apply q.result _).1.paperOrder = q.result.paperOrder
    rw [apply_of_exit (hexits.trans hexit)]
  · intro hveto hentry ttlSeconds budget earlier behaviour intent
    dsimp only
    intro horder
    -- an order that survives was there before
    have hgiven : q.result.paperOrder = some intent := by
      rcases (withheld_run { q with behaviour := behaviour } _).paperOrder with hsame | hnone
      · exact hsame.symm.trans horder
      · cases hnone.symm.trans horder
    have hproposed := (VerticalSlicePipeline.proposed_of_paperOrder hproduced hgiven).1
    obtain ⟨packet, hpacket, hsource⟩ := approved_of_run (q := { q with behaviour := behaviour })
      hveto hproposed (hexits.trans (by rw [hentry]; rfl)) horder
    refine ⟨packet, hpacket, hsource.imp_right ?_⟩
    rintro ⟨storedAt, stored, hentry', happroved, hfresh⟩
    have hcache := cacheApproved_run r ttlSeconds budget earlier
    exact ⟨_, hcache.given hentry' happroved, rfl, hcache.ttl ▸ hfresh⟩

end MetaAgentReviewer

namespace Approved

theorem hundred_pos : (0 : ℚ) < 100 := by norm_num

theorem nav_pos : (0 : ℚ) < 10000 := by norm_num

theorem cash_nonneg : (0 : ℚ) ≤ 10000 := by norm_num

/-- A pipeline without gates, of the default limits and no halt. -/
def pipeline : VerticalSlicePipeline where
  riskEngine := ⟨{ Settings.default with killSwitch := false }, none, none⟩
  exits := .default
  maxTickAgeSeconds := 10
  maxSpreadBps := 30
  maxReferenceDivergenceBps := 100
  demonstrationNotionalPct := 1 / 100
  pretradeGate := false
  featureBuilder := none
  defaultInterval := "1h"
  blockOnAdverseNews := true
  requireExternalIntelligence := false
  onchainRegimeGate := false
  onchainRegimeMaxPercentile := 9 / 10
  promoteUniverse := none

/-- BTC at 100, confirmed by a second source. -/
def market : MarketInput where
  tick := ⟨.kraken, "BTC/USD", 0, 100, 100, 100, hundred_pos, hundred_pos, hundred_pos⟩
  references := [⟨.coingecko, "BTC", "USD", 100, hundred_pos⟩]
  candles := none
  intelligence := none
  now := 0
  decisionId := "d1"

def portfolio : PortfolioSnapshot where
  navUsd := 10000
  cashUsd := 10000
  dailyPnlUsd := 0
  peakNavUsd := 10000
  assetExposureUsd := Dict.empty
  observedAt := 0
  heldPositions := Dict.empty
  nav_pos := nav_pos
  cash_nonneg := cash_nonneg
  peak_pos := nav_pos

/-- What the pipeline made of it: an entry. -/
def result : PipelineResult :=
  match pipeline.process market portfolio with
  | .ok r => r
  | .error _ => ⟨false, [], none, none, none, none, none, [], none⟩

theorem process_eq : pipeline.process market portfolio = .ok result := by
  have hok : (pipeline.process market portfolio).isOk = true := by decide +kernel
  unfold result
  cases hprocess : pipeline.process market portfolio with
  | ok r => rfl
  | error e =>
    rw [hprocess] at hok
    cases hok

/-- A reviewer with a veto. -/
def reviewer : MetaAgentReviewer where
  client := some .usageReporting
  mode := .veto
  model := "model"
  timeoutSeconds := "20"
  promptVersion := "1"
  promptHash := "sha256:prompt"
  committee := none
  evidenceDigest := fun packet => "sha256:" ++ packet.asset
  inputCostPerMtok := 0
  outputCostPerMtok := 0

theorem delta_bounds : -(15 / 100) ≤ (0 : ℚ) ∧ (0 : ℚ) ≤ 15 / 100 := by norm_num

theorem rationale_length : "sound".length ≤ 2000 := by decide

theorem flags_length : ([] : List String).length ≤ 16 := Nat.zero_le 16

/-- A model that approves. -/
def approves : ModelBehaviour :=
  .answers
    { decision := ⟨true, 0, "sound", [], delta_bounds, rationale_length, flags_length⟩
      model := some "model", inputTokens := 10, outputTokens := 5 }

def request : ReviewRequest where
  symbol := "BTC/USD"
  result := result
  signalId := none
  thesis := "demonstration"
  readings := ""
  now := 0
  startedAt := 0
  finishedAt := 1
  behaviour := approves

end Approved

namespace MetaAgentReviewer

/-- An approved entry keeps its order, and loses it to a model that is late. -/
theorem review_only_withholds_approved :
    (Approved.reviewer.run Approved.request
        (fresh 60 ⟨0, 0, none, 0, 0⟩).state).1.1.paperOrder.isSome = true ∧
      (Approved.reviewer.run { Approved.request with behaviour := .timesOut }
        (fresh 60 ⟨0, 0, none, 0, 0⟩).state).1.1.paperOrder = none ∧
      ∀ s behaviour, Withheld Approved.result
        (Approved.reviewer.run { Approved.request with behaviour := behaviour } s).1.1 :=
  ⟨by decide +kernel, by decide +kernel,
    (review_only_withholds Approved.reviewer Approved.request Approved.process_eq).1⟩

end MetaAgentReviewer

end TraderStack
