import TraderStack.Execution.SubmitEffects
import TraderStack.Execution.VenueRecords
import TraderStack.Lib.Machine

/-!
# One decision, one venue order

The submitter's promise over whole runs: any number of `submit` calls for any
decisions, each crashing at any of its durable steps or not at all, with
restarts from the persisted ledger in between, against any venue behaviour.

## The argument

`AtRest` says that memory and file agree and the records are `Safe`; every call
starts and ends there, and every crash leaves a file that is safe. Inside a call
the order being worked on goes through four stages, each an assertion on the
world:

- `Ready`: nothing was accepted for it, and it has attempts left;
- `Armed`: the attempt is counted and persisted, the call may go out;
- `Parked`: the call went unanswered, and the order is persisted as uncertain;
- `AtRest` again, through an answer, an adoption or exhaustion.

The retry gate leads from `Parked` back to `Ready`. It asks the venue for an
order of the ledger order's shape, so the step needs what was sent to have that
shape. A fresh order is sent as it is recorded; a resumed one is sent with the
new intent's asset and side, which nothing compares with the order's own. This
is where the promise breaks, and `KeepsShape` is the condition.
-/

namespace TraderStack

open Lib

/-! ## Assertions -/

/-- Memory and file hold the same ledger. -/
def World.Synced (w : World) : Prop := w.ledgerFile.getD .empty = w.ledger

/-- Memory and file agree, and the records are safe. -/
structure AtRest (s : IdempotentSubmitter) (env : VenueEnv) (D : String → Prop) (w : World) :
    Prop where
  synced : w.Synced
  safe : Safe s env D w.ledger w.venue

/-- A crash now leaves a ledger file that is safe. -/
def Recoverable (s : IdempotentSubmitter) (env : VenueEnv) (D : String → Prop) (w : World) :
    Prop :=
  Safe s env D (w.ledgerFile.getD .empty) w.venue

/-- The order is stored as it is, unanswered, with nothing accepted for it and
within its attempts: `budget` loop iterations suffice. -/
structure Ready (s : IdempotentSubmitter) (env : VenueEnv) (D : String → Prop) (budget : ℕ)
    (o : ExecutionOrder) (w : World) : Prop where
  safe : Safe s env D w.ledger w.venue
  stored : w.ledger.orders.get? o.orderId = some o
  state : o.state = .planned ∨ o.state = .submissionUncertain
  venueId : o.venueOrderId = none
  unaccepted : D o.decisionId → w.venue.acceptedFor o.orderId = []
  attempts : o.submissionAttempts ≤ s.maxRetries
  budget_ok : s.maxRetries + 1 ≤ o.submissionAttempts + budget

/-- The attempt is counted and persisted: a create call may go out. -/
structure Armed (s : IdempotentSubmitter) (env : VenueEnv) (D : String → Prop)
    (o : ExecutionOrder) (w : World) : Prop where
  rest : AtRest s env D w
  stored : w.ledger.orders.get? o.orderId = some o
  venueId : o.venueOrderId = none
  unaccepted : D o.decisionId → w.venue.acceptedFor o.orderId = []
  paid : (w.venue.callsFor o.orderId).length + 1 ≤ o.submissionAttempts

/-- The order is persisted as uncertain. -/
structure Parked (s : IdempotentSubmitter) (env : VenueEnv) (D : String → Prop)
    (o : ExecutionOrder) (w : World) : Prop where
  rest : AtRest s env D w
  stored : w.ledger.orders.get? o.orderId = some o
  uncertain : o.state = .submissionUncertain

/-- An answered search lists the venue's own orders. -/
def Listed (rows : Option (List Row)) (v : Venue) : Prop :=
  ∀ rs, rows = some rs →
    ∃ status : VenueOrder → String, ∀ a ∈ v.accepted, a.row (status a) ∈ rs

/-- No call raises. -/
abbrev Never (_ : SubmitError) (_ : World) : Prop := False

namespace IdempotentSubmitter

variable {s : IdempotentSubmitter} {env : VenueEnv} {D : String → Prop} {o : ExecutionOrder}
  {now : Time}

/-! ## The steps -/

theorem triple_persist {P : World → Prop} {Q : PUnit → World → Prop}
    (hsafe : ∀ w, P w → Safe s env D w.ledger w.venue)
    (h : ∀ w, P w → Q ⟨⟩ w.saveLedger) :
    Proc.Triple P persist Q Never (Recoverable s env D) :=
  Proc.Triple.effect fun w hw => ⟨h w hw, hsafe w hw⟩

theorem synced_saveLedger (w : World) : w.saveLedger.Synced := rfl

/-- A legal transition stores the order in its new state. -/
theorem triple_transition {P : World → Prop} {Q : ExecutionOrder → World → Prop}
    {state : OrderLifecycleState} {reason : Option Reason}
    (hlegal : o.state.isLegalTransition state = true)
    (h : ∀ w, P w →
      Q { o with state := state, lastUpdatedAt := now, reason := reason }
        (w.withLedger (w.ledger.put
          { o with state := state, lastUpdatedAt := now, reason := reason }))) :
    Proc.Triple P (transition o state reason now) Q Never (Recoverable s env D) := by
  have hok : o.transition state now = .ok { o with state := state, lastUpdatedAt := now } := by
    unfold ExecutionOrder.transition
    rw [if_pos hlegal]
  unfold transition
  rw [hok]
  exact Proc.Triple.bind (Proc.Triple.modify h) fun _ => Proc.Triple.pure fun _ hw => hw

/-- Closing a call: store the order in its last state, persist, return. -/
theorem triple_close {α : Type} {P : World → Prop} {Q : α → World → Prop}
    {state : OrderLifecycleState} {reason : Option Reason} {out : α}
    (hlegal : o.state.isLegalTransition state = true)
    (h : ∀ w, P w → Safe s env D w.ledger w.venue ∧
      Fits s D w.venue { o with state := state, lastUpdatedAt := now, reason := reason })
    (hout : ∀ w, AtRest s env D w → Q out w) :
    Proc.Triple P
      (do
        let _ ← transition o state reason now
        persist
        return out)
      Q Never (Recoverable s env D) := by
  refine Proc.Triple.bind (Q := fun _ w => Safe s env D w.ledger w.venue) ?_ fun _ => ?_
  · refine triple_transition hlegal fun w hw => ?_
    obtain ⟨hsafe, hfits⟩ := h w hw
    exact hsafe.put hfits
  · refine Proc.Triple.bind (Q := fun _ => AtRest s env D) ?_ fun _ => ?_
    · exact triple_persist (fun w hw => hw) fun w hw => ⟨synced_saveLedger w, hw⟩
    · exact Proc.Triple.pure hout

/-! ## The retry gate -/

/-- The search answers, or not; a no means that nothing was accepted. -/
theorem triple_venueKnows (hid : Identified s.planner env) :
    Proc.Triple (Parked s env D o) (s.venueKnows env o)
      (fun known w => Parked s env D o w ∧
        (known = some none → D o.decisionId → w.venue.acceptedFor o.orderId = []))
      Never (Recoverable s env D) := by
  unfold venueKnows
  -- the rows contain the venue's own
  refine Proc.Triple.bind
    (Q := fun rows w => Parked s env D o w ∧ Listed rows w.venue) ?_ ?_
  · refine Proc.Triple.effect fun w hw => ?_
    have hsafe := hw.rest.safe.search
    refine ⟨⟨⟨⟨hw.rest.synced, hsafe⟩, hw.stored, hw.uncertain⟩, ?_⟩, ?_⟩
    · intro rs hrs
      simp only [Venue.search] at hrs
      split at hrs
      · cases hrs
      · rename_i status arrange hcomplete _
        cases hrs
        exact ⟨status, fun a ha => hcomplete _ _ (List.mem_map_of_mem ha)⟩
    · show Safe s env D (w.ledgerFile.getD .empty) (w.venue.search env).2
      rw [hw.rest.synced]
      exact hsafe
  intro rows
  refine Proc.Triple.bind
    (Q := fun w0 w => w = w0 ∧ Parked s env D o w ∧ Listed rows w.venue) ?_ ?_
  · exact Proc.Triple.get fun w hw => ⟨rfl, hw⟩
  intro w0
  cases rows with
  | none => exact Proc.Triple.pure fun w hw => ⟨hw.2.1, by rintro ⟨⟩⟩
  | some rs =>
    dsimp only
    split
    · exact Proc.Triple.pure fun w hw => ⟨hw.2.1, by rintro ⟨⟩⟩
    · rename_i ground hknown
      refine Proc.Triple.pure fun w hw => ?_
      obtain ⟨rfl, hparked, hown⟩ := hw
      refine ⟨hparked, fun hground hD => ?_⟩
      cases hground
      obtain ⟨status, hown⟩ := hown rs rfl
      exact not_accepted_of_unknown hid hparked.rest.safe hparked.stored hparked.uncertain hD hown
        hknown

/-- What the gate leaves when it lets a retry through. -/
structure Cleared (s : IdempotentSubmitter) (env : VenueEnv) (D : String → Prop)
    (o : ExecutionOrder) (w : World) : Prop where
  parked : Parked s env D o w
  unaccepted : D o.decisionId → w.venue.acceptedFor o.orderId = []
  attempts : o.submissionAttempts ≤ s.maxRetries

/-- A cleared order is ready for as many attempts as it has left. -/
theorem Cleared.ready {w : World} (h : Cleared s env D o w) (budget : ℕ)
    (hbudget : s.maxRetries + 1 ≤ o.submissionAttempts + budget) : Ready s env D budget o w where
  safe := h.parked.rest.safe
  stored := h.parked.stored
  state := .inr h.parked.uncertain
  venueId := (h.parked.rest.safe.fits _ _ h.parked.stored).unanswered h.parked.uncertain
  unaccepted := h.unaccepted
  attempts := h.attempts
  budget_ok := hbudget

/-- **The retry gate**: it hands back an outcome at rest, or clears the order. -/
theorem triple_gateRetry (hid : Identified s.planner env) (baseReason : Option Reason) :
    Proc.Triple (Parked s env D o) (s.gateRetry env o baseReason now)
      (fun out w => match out with
        | some _ => AtRest s env D w
        | none => Cleared s env D o w)
      Never (Recoverable s env D) := by
  refine Proc.Triple.of_fact (fun w hw => hw.uncertain) fun huncertain => ?_
  have hlegal : ∀ state ∈ [OrderLifecycleState.submitted, .rejected],
      o.state.isLegalTransition state = true := by
    rw [huncertain]
    decide
  unfold gateRetry
  dsimp only
  split
  · exact Proc.Triple.pure fun w hw => hw.rest
  refine Proc.Triple.bind (triple_venueKnows hid) fun known => ?_
  match known with
  | none => exact Proc.Triple.pure fun w hw => hw.1.rest
  | some (some row) =>
    -- adopted: the order leaves uncertainty without a venue id
    refine Proc.Triple.bind
      (Q := fun _ w => Safe s env D w.ledger w.venue) ?_ fun o' => ?_
    · refine triple_transition (hlegal _ (by simp)) fun w hw => ?_
      have hsafe := hw.1.rest.safe
      exact hsafe.put ((hsafe.fits _ _ hw.1.stored).resolve (by decide))
    refine Proc.Triple.bind (Q := fun _ w => Safe s env D w.ledger w.venue) ?_ fun _ => ?_
    · exact Proc.Triple.modify fun w hw => hw
    refine Proc.Triple.bind (Q := fun _ => AtRest s env D) ?_ fun _ => ?_
    · exact triple_persist (fun w hw => hw) fun w hw => ⟨synced_saveLedger w, hw⟩
    · exact Proc.Triple.pure fun w hw => hw
  | some none =>
    dsimp only
    split
    · -- out of attempts
      refine triple_close (hlegal .rejected (by simp)) (fun w hw => ?_) fun w hw => hw
      have hsafe := hw.1.rest.safe
      exact ⟨hsafe, (hsafe.fits _ _ hw.1.stored).resolve (by decide)⟩
    · rename_i hattempts
      exact Proc.Triple.pure fun w hw => ⟨hw.1, hw.2 rfl, not_lt.mp hattempts⟩

/-! ## The retry loop -/

/-- The request is the order's: under its client order id and, where `D` asks
for it, of its shape. -/
structure Sendable (D : String → Prop) (req : HummingbotOrderRequest) (o : ExecutionOrder) :
    Prop where
  clientId : req.clientOrderId = some o.orderId
  shape : D o.decisionId → ∀ id, VenueOrder.SameShape ⟨id, req⟩ o

theorem Sendable.congr {req : HummingbotOrderRequest} {o : ExecutionOrder}
    (h : Sendable D req o) (o' : ExecutionOrder) (hid : o'.orderId = o.orderId) (hdecision : o'.decisionId = o.decisionId)
    (hasset : o'.asset = o.asset) (hside : o'.side = o.side)
    (hquantity : o'.requestedQuantity = o.requestedQuantity) : Sendable D req o' where
  clientId := by rw [hid, h.clientId]
  shape := by
    rw [hdecision]
    exact fun hD id => (h.shape hD id).congr hasset hside hquantity

/-- The call went out: what came back is consistent with what was accepted. -/
structure Sent (s : IdempotentSubmitter) (env : VenueEnv) (D : String → Prop)
    (o : ExecutionOrder) (response : CreateResponse) (w : World) : Prop where
  rest : AtRest s env D w
  stored : w.ledger.orders.get? o.orderId = some o
  venueId : o.venueOrderId = none
  shape : D o.decisionId → ∀ a ∈ w.venue.acceptedFor o.orderId, a.SameShape o
  answer : ∀ id, response = .receipt id →
    ∃ a ∈ w.venue.accepted, a.id = id ∧ a.request.clientOrderId = some o.orderId

/-- A receipt carries the id of the order just accepted. -/
theorem response_receipt {v : Venue} {req : HummingbotOrderRequest} {id : String}
    (h : (v.create env req).1 = .receipt id) :
    ⟨id, req⟩ ∈ (v.create env req).2.accepted := by
  rw [accepted_create]
  simp only [Venue.create] at h
  cases hb : env.create v.calls.length <;> rw [hb] at h <;> cases h
  exact List.mem_append_right _ (List.mem_singleton.mpr rfl)

theorem triple_postOrder {req : HummingbotOrderRequest} (hsend : Sendable D req o) :
    Proc.Triple (Armed s env D o) (postOrder env req) (Sent s env D o) Never
      (Recoverable s env D) := by
  refine Proc.Triple.effect fun w hw => ?_
  have hsafe : Safe s env D w.ledger (w.venue.create env req).2 :=
    hw.rest.safe.create hw.stored hsend.clientId hw.paid hw.unaccepted hsend.shape
  refine ⟨⟨⟨hw.rest.synced, hsafe⟩, hw.stored, hw.venueId, ?_, ?_⟩, ?_⟩
  · intro hD a ha
    rcases mem_acceptedFor_create ha with ha | rfl
    · rw [hw.unaccepted hD] at ha
      cases ha
    · exact hsend.shape hD _
  · intro id hresponse
    exact ⟨_, response_receipt hresponse, rfl, hsend.clientId⟩
  · show Safe s env D (w.ledgerFile.getD .empty) (w.venue.create env req).2
    rw [hw.rest.synced]
    exact hsafe

/-- Counting the attempt and persisting it arms the order for what follows. -/
theorem triple_arm {α : Type} {budget : ℕ} {next : Submit α} {Q : α → World → Prop}
    (hnext : Proc.Triple
      (Armed s env D { o with submissionAttempts := o.submissionAttempts + 1 }) next Q Never
      (Recoverable s env D)) :
    Proc.Triple (Ready s env D budget o)
      (do
        putOrder { o with submissionAttempts := o.submissionAttempts + 1 }
        persist
        next)
      Q Never (Recoverable s env D) := by
  refine Proc.Triple.bind
    (Q := fun _ w => Safe s env D w.ledger w.venue ∧
      Armed s env D { o with submissionAttempts := o.submissionAttempts + 1 } w.saveLedger)
    ?_ fun _ => ?_
  · refine Proc.Triple.modify fun w hw => ?_
    have hfits := hw.safe.fits _ _ hw.stored
    have hsafe := hw.safe.put
      (hfits.attempt o.requested_pos hw.unaccepted (Nat.le_succ _) (Nat.succ_le_succ hw.attempts))
    refine ⟨hsafe, ⟨synced_saveLedger _, hsafe⟩, ?_, hw.venueId, hw.unaccepted, ?_⟩
    · show (w.ledger.put _).orders.get? _ = _
      rw [ExecutionLedger.get?_put, if_pos rfl]
    · exact Nat.succ_le_succ hfits.calls_le
  · exact Proc.Triple.bind (triple_persist (fun w hw => hw.1) fun w hw => hw.2) fun _ => hnext

/-- **The retry loop** ends at rest within its budget, from a ready order. The
induction is on the budget: an iteration that comes back to the loop has used
one attempt, and attempts plus budget stay the same. -/
theorem triple_submitWithRetries (hid : Identified s.planner env) {intent : PaperOrderIntent}
    {plan : ExecutionPlan} {req : HummingbotOrderRequest}
    (hreq : s.executor.buildRequest intent plan.executionPriceUsd s.tradingMode plan.quantity
      plan.clientOrderId = .ok req) (budget : ℕ) (hsend : Sendable D req o) :
    Proc.Triple (Ready s env D budget o) (s.submitWithRetries env intent plan now budget o)
      (fun _ => AtRest s env D) Never (Recoverable s env D) := by
  induction budget generalizing o with
  | zero =>
    -- a ready order has attempts left, so the budget is not exhausted
    refine Proc.Triple.raise fun w hw => ?_
    have h1 := hw.attempts
    have h2 := hw.budget_ok
    omega
  | succ budget ih =>
    refine Proc.Triple.of_fact (fun w hw => hw.attempts) fun hattempts => ?_
    refine Proc.Triple.of_fact (fun w hw => hw.budget_ok) fun hbudget => ?_
    refine Proc.Triple.of_fact (fun w hw => hw.state) fun hstate => ?_
    have hlegal : ∀ state ∈ [OrderLifecycleState.submitted, .rejected, .submissionUncertain],
        o.state.isLegalTransition state = true := by
      rcases hstate with h | h <;> rw [h] <;> decide
    unfold submitWithRetries
    refine triple_arm ?_
    have hsend' := hsend.congr { o with submissionAttempts := o.submissionAttempts + 1 }
      rfl rfl rfl rfl rfl
    unfold call
    rw [hreq]
    refine Proc.Triple.bind (triple_postOrder hsend') fun response => ?_
    cases hanswer : s.answerOf response with
    | accepted orderId =>
      refine triple_close (hlegal .submitted (by simp)) (fun w hw => ?_) fun w hw => hw
      have hsafe := hw.rest.safe
      exact ⟨hsafe, (hsafe.fits _ _ hw.stored).accept (by decide)
        (hw.answer orderId (receipt_of_accepted hanswer))⟩
    | refused statusCode =>
      refine triple_close (hlegal .rejected (by simp)) (fun w hw => ?_) fun w hw => hw
      have hsafe := hw.rest.safe
      exact ⟨hsafe, (hsafe.fits _ _ hw.stored).resolve (by decide)⟩
    | uncertain reason =>
      -- park the order, persist, and ask the gate
      refine Proc.Triple.bind
        (Q := fun o' w => o' = { o with
            submissionAttempts := o.submissionAttempts + 1
            state := .submissionUncertain
            lastUpdatedAt := now
            reason := some reason } ∧
          Safe s env D w.ledger w.venue ∧ w.ledger.orders.get? o'.orderId = some o') ?_ fun o' => ?_
      · refine triple_transition (hlegal .submissionUncertain (by simp)) fun w hw => ?_
        have hsafe := hw.rest.safe
        refine ⟨rfl, hsafe.put ((hsafe.fits _ _ hw.stored).park hw.venueId hw.shape), ?_⟩
        show (w.ledger.put _).orders.get? _ = _
        rw [ExecutionLedger.get?_put, if_pos rfl]
      refine Proc.Triple.of_fact (fun w hw => hw.1) fun ho' => ?_
      refine Proc.Triple.bind (Q := fun _ => Parked s env D o') ?_ fun _ => ?_
      · refine triple_persist (fun w hw => hw.2.1) fun w hw => ?_
        exact ⟨⟨synced_saveLedger w, hw.2.1⟩, hw.2.2, by rw [ho']⟩
      refine Proc.Triple.bind (triple_gateRetry hid (some reason)) fun out => ?_
      cases out with
      | some outcome => exact Proc.Triple.pure fun w hw => hw
      | none =>
        have hsend'' : Sendable D req o' := by
          rw [ho']
          exact hsend.congr _ rfl rfl rfl rfl rfl
        refine (ih hsend'').mono (fun w hw => ?_) fun out w hw => hw
        refine hw.ready _ ?_
        rw [ho']
        show s.maxRetries + 1 ≤ o.submissionAttempts + 1 + budget
        omega

/-! ## submit -/

/-- A resuming call keeps the asset and the side of the order it resumes. -/
def KeepsShape (c : SubmitCall) (w : World) : Prop :=
  ∀ o ∈ resumableOrder w.ledger c.intent.decisionId,
    pairAsset (Text.upper c.intent.asset) = pairAsset o.asset ∧ c.intent.side = o.side

instance (c : SubmitCall) (w : World) : Decidable (KeepsShape c w) :=
  inferInstanceAs (Decidable (∀ o ∈ resumableOrder w.ledger c.intent.decisionId, _ ∧ _))

theorem resumableOrder_some {l : ExecutionLedger} {d : String}
    (h : resumableOrder l d = some o) :
    l.orders.get? o.orderId = some o ∧ o.decisionId = d ∧ o.state = .submissionUncertain := by
  obtain ⟨hget, hd⟩ := ExecutionLedger.mem_ordersForDecision.mp (List.mem_of_find?_eq_some h)
  exact ⟨hget, hd, by simpa using List.find?_some h⟩

/-- What is sent is what was planned. -/
theorem sendable_of_plan {intent : PaperOrderIntent} {plan : ExecutionPlan}
    {req : HummingbotOrderRequest} (hreq : s.executor.buildRequest intent plan.executionPriceUsd
      s.tradingMode plan.quantity plan.clientOrderId = .ok req)
    (hid : o.orderId = plan.clientOrderId) (hquantity : o.requestedQuantity = plan.quantity)
    (hshape : D o.decisionId →
      pairAsset (Text.upper intent.asset) = pairAsset o.asset ∧ intent.side = o.side) :
    Sendable D req o := by
  obtain ⟨hpair, hside, hamount, hclient⟩ := buildRequest_ok hreq
  refine ⟨by rw [hclient, hid], fun hD id => ?_⟩
  obtain ⟨hasset, hsame⟩ := hshape hD
  have hpair_eq : req.tradingPair = Text.upper intent.asset ++ "-" ++ "USD" := by
    rw [hpair, String.append_assoc]
    rfl
  refine ⟨?_, ?_, ?_, ?_⟩
  · -- a pair ends in its quote
    show req.tradingPair ≠ ""
    intro hempty
    have hlen := congrArg String.length (hpair.symm.trans hempty)
    rw [String.length_append] at hlen
    have hquote : "-USD".length = 4 := rfl
    have hzero : "".length = 0 := rfl
    omega
  · show pairAsset req.tradingPair = _
    rw [hpair_eq, pairAsset_append, hasset]
  · show req.tradeType = _
    rw [hside, hsame]
  · show req.amount = _
    rw [hamount, hquantity]

/-- A decision without an order has no entry under its client order id. -/
theorem get?_of_no_order (hid : Identified s.planner env) {l : ExecutionLedger} {v : Venue}
    (hs : Safe s env D l v) {d : String} (h : l.hasOrderForDecision d = false) :
    l.orders.get? (s.planner.clientOrderIdFor d) = none := by
  cases hget : l.orders.get? (s.planner.clientOrderIdFor d) with
  | none => rfl
  | some o =>
    exfalso
    have hkey := (hs.fits _ _ hget).key
    rw [l.keyed _ _ hget] at hkey
    have hd : o.decisionId = d := (clientOrderIdFor_injective hid.digest_injective hkey).symm
    have htrue := ExecutionLedger.hasOrderForDecision_iff.mpr ⟨_, o, hget, hd⟩
    rw [h] at htrue
    cases htrue

/-- The planned order of a fresh decision fits a venue that was never asked. -/
theorem fits_plannedOrder {l : ExecutionLedger} {v : Venue} (now : Time) (hs : Safe s env D l v)
    {plan : ExecutionPlan}
    (hplan : plan.clientOrderId = s.planner.clientOrderIdFor plan.decisionId)
    (hfresh : l.orders.get? plan.clientOrderId = none) :
    Fits s D v (PaperFillSimulator.plannedOrder plan now) := by
  have hcalls : v.callsFor plan.clientOrderId = [] := by
    rw [hplan] at hfresh ⊢
    exact hs.unsent _ hfresh
  have haccepted : v.acceptedFor plan.clientOrderId = [] := acceptedFor_eq_nil hs hcalls
  refine ⟨hplan, rfl, nofun, nofun, ?_, Nat.zero_le _, fun _ => ?_, nofun⟩
  · show (v.callsFor plan.clientOrderId).length ≤ 0
    rw [hcalls]
    exact le_rfl
  · show (v.acceptedFor plan.clientOrderId).length ≤ 1
    rw [haccepted]
    exact Nat.zero_le 1

/-- What a call that gets past the gate starts from: a decision with no order,
or a cleared order of the decision. -/
def Opening (s : IdempotentSubmitter) (env : VenueEnv) (D : String → Prop) (c : SubmitCall) :
    Option ExecutionOrder → World → Prop
  | none, w => AtRest s env D w ∧ w.ledger.hasOrderForDecision c.intent.decisionId = false
  | some o, w => Cleared s env D o w ∧ o.decisionId = c.intent.decisionId ∧
      (D o.decisionId → pairAsset (Text.upper c.intent.asset) = pairAsset o.asset ∧
        c.intent.side = o.side)

/-- A refusal before anything is sent leaves the records at rest. -/
theorem triple_rejectResumed {c : SubmitCall} {resumed : Option ExecutionOrder} {reason : Reason} :
    Proc.Triple (Opening s env D c resumed) (rejectResumed resumed reason c.now)
      (fun _ => AtRest s env D) Never (Recoverable s env D) := by
  cases resumed with
  | none => exact Proc.Triple.pure fun w hw => hw.1
  | some o =>
    refine Proc.Triple.of_fact (fun w hw => hw.1.parked.uncertain) fun huncertain => ?_
    refine Proc.Triple.bind (Q := fun _ w => Safe s env D w.ledger w.venue) ?_ fun _ => ?_
    · refine triple_transition (by rw [huncertain]; decide) fun w hw => ?_
      have hsafe := hw.1.parked.rest.safe
      exact hsafe.put ((hsafe.fits _ _ hw.1.parked.stored).resolve (by decide))
    · exact triple_persist (fun w hw => hw) fun w hw => ⟨synced_saveLedger w, hw⟩

/-- The order to send is ready, and what will be sent is its request. -/
theorem triple_orderToSend (hid : Identified s.planner env) {c : SubmitCall}
    {resumed : Option ExecutionOrder} {plan : ExecutionPlan} {req : HummingbotOrderRequest}
    {price : ℚ} {cap : Option ℚ}
    (hplan : ExecutionPlanner.Planned s.planner c.intent price cap plan)
    (hreq : s.executor.buildRequest c.intent plan.executionPriceUsd s.tradingMode plan.quantity
      plan.clientOrderId = .ok req) :
    Proc.Triple (Opening s env D c resumed) (orderToSend resumed plan c.now)
      (fun o w => Ready s env D (s.maxRetries + 1) o w ∧ Sendable D req o) Never
      (Recoverable s env D) := by
  have hclient : plan.clientOrderId = s.planner.clientOrderIdFor plan.decisionId := by
    rw [hplan.clientOrderId, hplan.decisionId]
  cases resumed with
  | none =>
    -- a fresh order is sent as it is recorded
    refine Proc.Triple.bind
      (Q := fun w0 w => w = w0 ∧ AtRest s env D w ∧
        w.ledger.orders.get? plan.clientOrderId = none) ?_ fun w0 => ?_
    · refine Proc.Triple.get fun w hw => ⟨rfl, hw.1, ?_⟩
      rw [hplan.clientOrderId]
      exact get?_of_no_order hid hw.1.safe hw.2
    refine Proc.Triple.of_fact (fun w hw => hw.1 ▸ hw.2.2) fun hfresh => ?_
    have hregister : w0.ledger.registerOrder (PaperFillSimulator.plannedOrder plan c.now) =
        .ok (w0.ledger.put (PaperFillSimulator.plannedOrder plan c.now)) := by
      have hnone : w0.ledger.orders.get?
          (PaperFillSimulator.plannedOrder plan c.now).orderId = none := hfresh
      unfold ExecutionLedger.registerOrder
      rw [hnone]
    dsimp only
    rw [hregister]
    dsimp only
    refine Proc.Triple.bind
      (Q := fun _ => Ready s env D (s.maxRetries + 1)
        (PaperFillSimulator.plannedOrder plan c.now)) ?_ fun _ => ?_
    · refine Proc.Triple.modify fun w hw => ?_
      obtain ⟨rfl, hrest, hget⟩ := hw
      have hfits := fits_plannedOrder c.now hrest.safe hclient hget
      refine ⟨hrest.safe.put hfits, ?_, .inl rfl, rfl, fun _ => ?_, Nat.zero_le _,
        Nat.le_add_left _ _⟩
      · show (w.ledger.put _).orders.get? _ = _
        rw [ExecutionLedger.get?_put, if_pos rfl]
      · refine acceptedFor_eq_nil hrest.safe (List.length_eq_zero_iff.mp ?_)
        exact Nat.le_zero.mp hfits.calls_le
    · refine Proc.Triple.pure fun w hw => ⟨hw, sendable_of_plan hreq rfl rfl fun _ => ?_⟩
      exact ⟨by rw [← hplan.asset]; rfl, hplan.side.symm⟩
  | some o =>
    -- a resumed order takes the new quantity and keeps its own asset and side
    refine Proc.Triple.of_fact (fun w hw => hw.2) fun ⟨hdecision, hshape⟩ => ?_
    refine Proc.Triple.bind
      (Q := fun _ w => Ready s env D (s.maxRetries + 1)
        { o with requestedQuantity := plan.quantity, requested_pos := plan.quantity_pos } w ∧
        o.orderId = plan.clientOrderId) ?_ fun _ => ?_
    · refine Proc.Triple.modify fun w hw => ?_
      have hready := hw.1.ready (s.maxRetries + 1) (Nat.le_add_left _ _)
      have hfits := hready.safe.fits _ _ hready.stored
      refine ⟨⟨hready.safe.put ?_, ?_, hready.state, hready.venueId, hready.unaccepted,
        hready.attempts, hready.budget_ok⟩, ?_⟩
      · exact hfits.attempt plan.quantity_pos hready.unaccepted le_rfl
          (Nat.le_succ_of_le hready.attempts)
      · show (w.ledger.put _).orders.get? _ = _
        rw [ExecutionLedger.get?_put, if_pos rfl]
      · rw [hfits.key, hdecision, hplan.clientOrderId]
    · refine Proc.Triple.pure fun w hw => ⟨hw.1, ?_⟩
      exact sendable_of_plan hreq hw.2 rfl hshape

theorem triple_proceed (hid : Identified s.planner env) (c : SubmitCall)
    (resumed : Option ExecutionOrder) :
    Proc.Triple (Opening s env D c resumed) (s.proceed env c resumed) (fun _ => AtRest s env D)
      Never (Recoverable s env D) := by
  unfold proceed
  split
  · refine Proc.Triple.bind triple_rejectResumed fun _ => ?_
    exact Proc.Triple.pure fun w hw => hw
  rename_i plan hplan
  split
  · refine Proc.Triple.bind triple_rejectResumed fun _ => ?_
    exact Proc.Triple.pure fun w hw => hw
  rename_i req hreq
  have hplanned := ExecutionPlanner.planned_of_ok hplan
  refine Proc.Triple.bind (triple_orderToSend hid hplanned hreq) fun o => ?_
  refine Proc.Triple.bind
    (Q := fun _ w => Ready s env D (s.maxRetries + 1) o w ∧ Sendable D req o) ?_ fun _ => ?_
  · refine triple_persist (fun w hw => hw.1.safe) fun w hw => ⟨?_, hw.2⟩
    exact ⟨hw.1.safe, hw.1.stored, hw.1.state, hw.1.venueId, hw.1.unaccepted, hw.1.attempts,
      hw.1.budget_ok⟩
  · refine Proc.Triple.of_fact (fun w hw => hw.2) fun hsend => ?_
    exact (triple_submitWithRetries hid hreq _ hsend).mono (fun w hw => hw.1) fun _ w hw => hw

/-- **One call**: `submit` never raises and leaves the records at rest, and a
crash anywhere in it leaves a recoverable file. -/
theorem triple_submit (hid : Identified s.planner env) (c : SubmitCall) :
    Proc.Triple
      (fun w => AtRest s env D w ∧ (D c.intent.decisionId → KeepsShape c w))
      (s.submit env c) (fun _ => AtRest s env D) Never (Recoverable s env D) := by
  unfold submit
  refine Proc.Triple.bind
    (Q := fun w0 w => w = w0 ∧ AtRest s env D w ∧ (D c.intent.decisionId → KeepsShape c w))
    ?_ fun w0 => ?_
  · exact Proc.Triple.get fun w hw => ⟨rfl, hw⟩
  cases hresumed : resumableOrder w0.ledger c.intent.decisionId with
  | none =>
    dsimp only
    split
    · exact Proc.Triple.pure fun w hw => hw.2.1
    · rename_i hnone
      refine (triple_proceed hid c none).mono (fun w hw => ?_) fun _ w hw => hw
      obtain ⟨rfl, hrest, -⟩ := hw
      exact ⟨hrest, Bool.not_eq_true _ ▸ hnone⟩
  | some o =>
    obtain ⟨hget, hdecision, huncertain⟩ := resumableOrder_some hresumed
    refine Proc.Triple.of_fact (F := D c.intent.decisionId → KeepsShape c w0)
      (fun w hw => hw.1 ▸ hw.2.2) fun hkeeps => ?_
    refine Proc.Triple.bind
      ((triple_gateRetry hid none).mono (S := fun w => w = w0 ∧ AtRest s env D w ∧
        (D c.intent.decisionId → KeepsShape c w)) (fun w hw => ?_) fun _ w hw => hw) fun out => ?_
    · obtain ⟨rfl, hrest, -⟩ := hw
      exact ⟨hrest, hget, huncertain⟩
    · cases out with
      | some outcome => exact Proc.Triple.pure fun w hw => hw
      | none =>
        refine (triple_proceed hid c (some o)).mono (fun w hw => ?_) fun _ w hw => hw
        refine ⟨hw, hdecision, fun hD => ?_⟩
        rw [hdecision] at hD
        exact hkeeps hD o hresumed

end IdempotentSubmitter

end TraderStack
