import TraderStack.Execution.Atomicity
import TraderStack.Execution.SubmitOnce

/-!
# At most one venue order per decision

A run is any sequence of `submit` calls, each of which may crash at any of its
durable steps, and restarts. In every run every call returns and no decision
makes more than `max_retries + 1` create calls. At most one order per decision
is accepted as long as no resuming call changes the asset or the side of the
order it resumes; one that flips the side can be sent twice.
-/

namespace TraderStack

open Lib

/-- What happens to a submitter: a call, crashing at its k-th durable step or
not at all, or a restart. -/
inductive SubmitEvent where
  | submit (call : SubmitCall) (crash : Option ℕ)
  | restart

namespace IdempotentSubmitter

variable {s : IdempotentSubmitter} {env : VenueEnv} {D : String → Prop}

/-- The world after an event. -/
def step (s : IdempotentSubmitter) (env : VenueEnv) (w : World) : SubmitEvent → World
  | .submit c crash => (s.submit env c w).after World.reloadLedger crash
  | .restart => w.reloadLedger

/-- A call for the decision keeps the shape of the order it resumes, if any. -/
def Keeps (decisionId : String) (w : World) : SubmitEvent → Prop
  | .submit c _ => c.intent.decisionId = decisionId → KeepsShape c w
  | .restart => True

instance (decisionId : String) (w : World) :
    ∀ e, Decidable (Keeps decisionId w e)
  | .submit c _ => inferInstanceAs (Decidable (c.intent.decisionId = decisionId → KeepsShape c w))
  | .restart => inferInstanceAs (Decidable True)

/-- The venue accepted at most one order for the decision. -/
def AcceptedOnce (s : IdempotentSubmitter) (decisionId : String) (w : World) : Prop :=
  (w.venue.acceptedFor (s.planner.clientOrderIdFor decisionId)).length ≤ 1

/-- The decision's create calls stay within the retry limit. -/
def CallsBounded (s : IdempotentSubmitter) (decisionId : String) (w : World) : Prop :=
  (w.venue.callsFor (s.planner.clientOrderIdFor decisionId)).length ≤ s.maxRetries + 1

/-- Every call of the run returns. -/
def Terminates (s : IdempotentSubmitter) (env : VenueEnv) (w : World) (es : List SubmitEvent) :
    Prop :=
  ∀ pre c crash post, es = pre ++ .submit c crash :: post →
    ∃ out, (s.submit env c (run (s.step env) w pre)).exit = .ok out

/-- Reloading a recoverable file is a rest state. -/
theorem atRest_reload {w : World} (h : Recoverable s env D w) : AtRest s env D w.reloadLedger where
  synced := rfl
  safe := h

theorem AtRest.recoverable {w : World} (h : AtRest s env D w) : Recoverable s env D w := by
  rw [Recoverable, h.synced]
  exact h.safe

theorem atRest_fresh (book : PortfolioBook) : AtRest s env D (.fresh book) :=
  ⟨rfl, safe_empty⟩

/-- **One event** leads from rest to rest. -/
theorem atRest_step (hid : Identified s.planner env) {w : World} {e : SubmitEvent}
    (hkeeps : ∀ d, D d → Keeps d w e) (h : AtRest s env D w) : AtRest s env D (s.step env w e) := by
  cases e with
  | restart => exact atRest_reload (AtRest.recoverable h)
  | submit c crash =>
    have htriple := triple_submit (D := D) hid c
    refine htriple.after (fun _ _ hw => hw) (fun _ _ hw => hw.elim) (fun _ hw => atRest_reload hw)
      (fun _ hw => atRest_reload (AtRest.recoverable hw)) ⟨h, fun hD => ?_⟩ crash
    exact hkeeps _ hD rfl

/-- **A run** of such events leads from rest to rest. -/
theorem atRest_run (hid : Identified s.planner env) {w : World} (es : List SubmitEvent)
    (hkeeps : Along (s.step env) (fun w e => ∀ d, D d → Keeps d w e) w es)
    (h : AtRest s env D w) : AtRest s env D (run (s.step env) w es) :=
  run_invariant_along (fun _ _ hG hI => atRest_step hid hG hI) w es hkeeps h

/-- Nothing is asked of a run when `D` is empty. -/
theorem atRest_run_any (hid : Identified s.planner env) {w : World} (es : List SubmitEvent)
    (h : AtRest s env (fun _ => False) w) :
    AtRest s env (fun _ => False) (run (s.step env) w es) :=
  run_invariant (fun _ _ hI => atRest_step hid (fun _ hD => hD.elim) hI) w es h

/-- At rest, an order accounts for its decision's calls, and no order means no
calls. -/
theorem callsBounded_of_atRest {w : World} (h : AtRest s env D w) (d : String) :
    s.CallsBounded d w := by
  unfold CallsBounded
  cases hget : w.ledger.orders.get? (s.planner.clientOrderIdFor d) with
  | none =>
    rw [h.safe.unsent d hget]
    exact Nat.zero_le _
  | some o =>
    have hfits := h.safe.fits _ _ hget
    have hcalls := hfits.calls_le
    rw [w.ledger.keyed _ _ hget] at hcalls
    exact hcalls.trans hfits.attempts_le

theorem acceptedOnce_of_atRest (hid : Identified s.planner env) {w : World}
    (h : AtRest s env D w) {d : String} (hD : D d) : s.AcceptedOnce d w := by
  unfold AcceptedOnce
  cases hget : w.ledger.orders.get? (s.planner.clientOrderIdFor d) with
  | none =>
    rw [acceptedFor_eq_nil h.safe (h.safe.unsent d hget)]
    exact Nat.zero_le 1
  | some o =>
    have hfits := h.safe.fits _ _ hget
    have hkey := hfits.key
    rw [w.ledger.keyed _ _ hget] at hkey
    have hd : o.decisionId = d := (clientOrderIdFor_injective hid.digest_injective hkey).symm
    have honce := hfits.once (hd ▸ hD)
    rw [w.ledger.keyed _ _ hget] at honce
    exact honce

/-- From rest, every call returns. -/
theorem exit_ok_of_atRest (hid : Identified s.planner env) {w : World}
    (h : AtRest s env (fun _ => False) w) (c : SubmitCall) :
    ∃ out, (s.submit env c w).exit = .ok out := by
  obtain ⟨hexit, -⟩ := triple_submit hid c w ⟨h, fun hD => hD.elim⟩
  cases hrun : (s.submit env c w).exit with
  | ok out => exact ⟨out, rfl⟩
  | error e =>
    rw [hrun] at hexit
    exact hexit.elim

/-- **At-most-once execution.** In every run every call returns and each
decision's create calls stay within the retry limit; a decision whose resuming
calls keep the asset and the side of the order they resume is accepted at most
once. -/
theorem at_most_once (hid : Identified s.planner env) (book : PortfolioBook)
    (es : List SubmitEvent) :
    s.Terminates env (.fresh book) es ∧
      ∀ d, s.CallsBounded d (run (s.step env) (.fresh book) es) ∧
        (Along (s.step env) (Keeps d) (.fresh book) es →
          s.AcceptedOnce d (run (s.step env) (.fresh book) es)) := by
  refine ⟨?_, fun d => ⟨?_, ?_⟩⟩
  · intro pre c crash post _
    exact exit_ok_of_atRest hid (atRest_run_any hid pre (atRest_fresh book)) c
  · exact callsBounded_of_atRest (atRest_run_any hid es (atRest_fresh book)) d
  · intro hkeeps
    have hrest : AtRest s env (fun d' => d' = d) (run (s.step env) (.fresh book) es) := by
      refine atRest_run hid es ?_ (atRest_fresh book)
      exact along_imp (fun w e h d' hd' => hd' ▸ h) _ es hkeeps
    exact acceptedOnce_of_atRest hid hrest rfl

/-! ### A decision resumed on the other side -/

end IdempotentSubmitter

namespace Flip

/-- A submitter with two retries over the simulator's planner. -/
def submitter : IdempotentSubmitter where
  executor := ⟨"paper", "kraken_paper_trade"⟩
  planner := Oversold.sim.planner
  resolver := true
  timeoutSeconds := 10
  maxRetries := 2
  tradingMode := .paper

/-- A venue that times out twice, accepting the second order only, and creates
the third; its first search fails. -/
def env : VenueEnv where
  create := fun n => if n = 0 then .timedOut false else if n = 1 then .timedOut true else .created
  query := fun n =>
    if n = 0 then .unreachable else .answers (fun _ => "open") id (fun _ _ h => h)
  mint := fun n => String.ofList ('v' :: List.replicate n '0')

theorem identified : Identified submitter.planner env where
  digest_injective := fun _ _ h => h
  mint_injective := by
    intro m n h
    have hlen := congrArg (fun x : String => x.toList.length) h
    simpa [env] using hlen
  mint_fresh := by
    intro n d h
    have hhead := congrArg (fun x : String => x.toList.head?) h
    simp only [env, ExecutionPlanner.clientOrderIdFor, submitter, Oversold.sim,
      String.toList_append, String.toList_ofList] at hhead
    have hfirst : some 'v' = some 't' := hhead
    exact absurd hfirst (by decide)

/-- A call of decision `d1` for 100 USD of BTC at 100. -/
def call (side : Side) : SubmitCall where
  intent :=
    { decisionId := "d1", asset := "BTC", side := side, notionalUsd := 100
      venue := "kraken_paper_trade", reduceOnly := false, notional_pos := Oversold.hundred_pos }
  executionPriceUsd := 100
  referencePriceUsd := 100
  maxQuantity := none
  now := 0

/-- A BUY that is not accepted and goes unanswered, then a SELL. -/
def events : List SubmitEvent := [.submit (call .buy) none, .submit (call .sell) none]

def book : PortfolioBook := .fresh 1000 Oversold.thousand_pos

end Flip

namespace IdempotentSubmitter

/-- Two orders are accepted for one decision when a resuming call flips the
side: the search looks for the BUY and misses the SELL it should have found. -/
theorem not_acceptedOnce_flip :
    Identified Flip.submitter.planner Flip.env ∧
      ¬Flip.submitter.AcceptedOnce "d1"
        (run (Flip.submitter.step Flip.env) (.fresh Flip.book) Flip.events) :=
  ⟨Flip.identified, by unfold AcceptedOnce; decide +kernel⟩

/-- Two BUYs of the decision, the second one crashing once its call is out, and
a third: one order. -/
theorem at_most_once_resumed :
    Flip.submitter.AcceptedOnce "d1"
      (run (Flip.submitter.step Flip.env) (.fresh Flip.book)
        [.submit (Flip.call .buy) none, .submit (Flip.call .buy) (some 3),
          .submit (Flip.call .buy) none]) := by
  refine ((at_most_once Flip.identified Flip.book _).2 "d1").2 ?_
  decide +kernel

end IdempotentSubmitter

end TraderStack
