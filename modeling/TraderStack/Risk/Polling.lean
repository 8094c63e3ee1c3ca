import TraderStack.Risk.Breaker

/-!
# Polling the strategy circuit breaker

`is_tripped` is a query, but one that finds the cool-down elapsed resets the
strategy. A strategy nobody asked about stays tripped instead, and what it loses
meanwhile does not trip it again: whether later losses suspend it may depend on
whether somebody asked in between.

- `unpolled_or_reset`: what polls may have done to a strategy's state;
- `polling_blind_iff`: the polls do not matter exactly when the strategy does not
  trip again after a cool-down.
-/

namespace TraderStack

open Lib

namespace StrategyCircuitBreaker

/-! ## Calls -/

/-- A call on the breaker. -/
inductive Call where
  | recordClosedTrade (strategyId : String) (t : ClosedTrade)
  | isTripped (strategyId : String) (now : Time)

/-- When it was made. -/
def Call.time : Call → Time
  | .recordClosedTrade _ t => t.closedAt
  | .isTripped _ now => now

/-- The outcome it records. -/
def Call.outcome? : Call → Option (String × ClosedTrade)
  | .recordClosedTrade strategyId t => some (strategyId, t)
  | .isTripped _ _ => none

/-- The breaker after a call. -/
def call (b : StrategyCircuitBreaker) : Call → StrategyCircuitBreaker
  | .recordClosedTrade strategyId t => b.record strategyId t
  | .isTripped strategyId now => (b.isTripped strategyId now).2

/-- The outcomes recorded by some calls. -/
def outcomes (calls : List Call) : List (String × ClosedTrade) := calls.filterMap Call.outcome?

/-- The calls were made in this order, none of them after `t`. -/
structure UpTo (calls : List Call) (t : Time) : Prop where
  ordered : calls.Pairwise fun c d => c.time ≤ d.time
  le : ∀ c ∈ calls, c.time ≤ t

/-! ## One strategy's state -/

/-- A strategy's state after a poll: an elapsed cool-down resets it. -/
def polled (b : StrategyCircuitBreaker) (state : StrategyBreakerState) (now : Time) :
    StrategyBreakerState :=
  match state.trippedAt with
  | none => state
  | some trippedAt => if b.cooldownSeconds ≤ now - trippedAt then .new else state

/-- A strategy's state after a call. -/
def stateAfter (b : StrategyCircuitBreaker) (strategyId : String) (state : StrategyBreakerState) :
    Call → StrategyBreakerState
  | .recordClosedTrade other t => if other = strategyId then b.observed state t else state
  | .isTripped other now => if other = strategyId then b.polled state now else state

/-- The state has the strategy suspended. -/
def Suspends (b : StrategyCircuitBreaker) (state : StrategyBreakerState) (now : Time) : Prop :=
  ∃ trippedAt, state.trippedAt = some trippedAt ∧ now - trippedAt < b.cooldownSeconds

variable {b : StrategyCircuitBreaker} {strategyId : String}

/-- No call changes the limits. -/
theorem call_eq (b : StrategyCircuitBreaker) (c : Call) :
    ∃ states, b.call c = { b with states := states } := by
  cases c with
  | recordClosedTrade other t => exact ⟨_, rfl⟩
  | isTripped other now =>
    unfold call isTripped reset
    dsimp only
    split
    · exact ⟨_, rfl⟩
    · split
      · exact ⟨_, rfl⟩
      · split
        · split <;> exact ⟨_, rfl⟩
        · exact ⟨_, rfl⟩

theorem stateFor_call (c : Call) :
    (b.call c).stateFor strategyId = b.stateAfter strategyId (b.stateFor strategyId) c := by
  cases c with
  | recordClosedTrade other t =>
    unfold stateAfter
    dsimp only
    by_cases h : other = strategyId
    · subst h
      rw [if_pos rfl]
      exact stateFor_record_self t
    · rw [if_neg h]
      exact stateFor_record_of_ne (Ne.symm h) t
  | isTripped other now =>
    unfold call stateAfter isTripped reset polled stateFor
    dsimp only
    by_cases h : other = strategyId
    · subst h
      rw [if_pos rfl]
      cases hget : b.states.get? other with
      | none => simp [hget, StrategyBreakerState.new]
      | some state =>
        cases htripped : state.trippedAt with
        | none => simp [hget, htripped]
        | some trippedAt =>
          by_cases helapsed : b.cooldownSeconds ≤ now - trippedAt
          · simp [htripped, helapsed, StrategyBreakerState.new]
          · simp [hget, htripped, helapsed]
    · rw [if_neg h]
      split
      · rfl
      · split
        · rfl
        · split
          · split
            · rfl
            · dsimp only
              rw [Dict.get?_set_of_ne _ (Ne.symm h)]
          · rfl

/-- **A strategy's state follows from the calls on it.** -/
theorem stateFor_run (calls : List Call) :
    (run call b calls).stateFor strategyId
      = calls.foldl (b.stateAfter strategyId) (b.stateFor strategyId) := by
  induction calls generalizing b with
  | nil => rfl
  | cons c calls ih =>
    rw [run_cons, List.foldl_cons, ih, stateFor_call]
    obtain ⟨states, hcall⟩ := call_eq b c
    rw [hcall]
    rfl

theorem verdict_iff {calls : List Call} {now : Time} :
    ((run call b calls).isTripped strategyId now).1 = true ↔
      b.Suspends (calls.foldl (b.stateAfter strategyId) (b.stateFor strategyId)) now := by
  have hcooldown : (run call b calls).cooldownSeconds = b.cooldownSeconds := by
    refine run_invariant (I := fun b' => b'.cooldownSeconds = b.cooldownSeconds) ?_ b calls rfl
    intro b' c hb'
    obtain ⟨states, hcall⟩ := call_eq b' c
    rw [hcall]
    exact hb'
  rw [isTripped_iff, stateFor_run, hcooldown]
  rfl

/-! ## What polls may have done -/

theorem trippedAt_foldl {trades : List ClosedTrade} {state : StrategyBreakerState} {t : Time}
    (h : state.trippedAt = some t) : (trades.foldl b.observed state).trippedAt = some t := by
  induction trades generalizing state with
  | nil => exact h
  | cons trade trades ih =>
    refine ih ?_
    unfold observed
    dsimp only
    rw [if_pos (h ▸ rfl)]
    exact h

theorem tradesOf_append (outcomes outcomes' : List (String × ClosedTrade)) :
    tradesOf strategyId (outcomes ++ outcomes')
      = tradesOf strategyId outcomes ++ tradesOf strategyId outcomes' := by
  simp [tradesOf]

/-- What calls up to `t` may have made of a strategy's state, given its trades: what
the trades leave, or, reset when the cool-down of the trip had elapsed, what the
trades since then leave of a new state. -/
inductive Reached (b : StrategyCircuitBreaker) (state : StrategyBreakerState)
    (trades : List ClosedTrade) (t : Time) : StrategyBreakerState → Prop where
  | unpolled : Reached b state trades t (trades.foldl b.observed state)
  | resetAt (before since : List ClosedTrade) (trippedAt resetAt : Time)
      (htrades : trades = before ++ since)
      (htripped : (before.foldl b.observed state).trippedAt = some trippedAt)
      (helapsed : b.cooldownSeconds ≤ resetAt - trippedAt) (hreset : resetAt ≤ t)
      (hsince : ∀ x ∈ since, resetAt ≤ x.closedAt) :
      Reached b state trades t (since.foldl b.observed .new)

variable {state reached : StrategyBreakerState} {trades : List ClosedTrade} {t now : Time}

theorem Reached.mono (h : Reached b state trades t reached) (ht : t ≤ now) :
    Reached b state trades now reached := by
  cases h with
  | unpolled => exact .unpolled
  | resetAt before since trippedAt resetAt htrades htripped helapsed hreset hsince =>
    exact .resetAt before since trippedAt resetAt htrades htripped helapsed (hreset.trans ht) hsince

/-- One more trade, on either side. -/
theorem Reached.observed (h : Reached b state trades t reached) {trade : ClosedTrade}
    (ht : t ≤ trade.closedAt) :
    Reached b state (trades ++ [trade]) trade.closedAt (b.observed reached trade) := by
  have hone : ∀ l s, (l ++ [trade]).foldl b.observed s = b.observed (l.foldl b.observed s) trade :=
    fun l s => List.foldl_append
  cases h with
  | unpolled =>
    rw [← hone]
    exact .unpolled
  | resetAt before since trippedAt resetAt htrades htripped helapsed hreset hsince =>
    rw [← hone]
    refine .resetAt before (since ++ [trade]) trippedAt resetAt ?_ htripped helapsed
      (hreset.trans ht) ?_
    · rw [htrades, List.append_assoc]
    · intro x hx
      rcases List.mem_append.mp hx with hx | hx
      · exact hsince x hx
      · rw [List.mem_singleton.mp hx]
        exact hreset.trans ht

/-- A poll resets, or does nothing; a reset later than another is one after the same
trip. -/
theorem Reached.polled (h : Reached b state trades t reached) (ht : t ≤ now) :
    Reached b state trades now (b.polled reached now) := by
  unfold StrategyCircuitBreaker.polled
  split
  · exact h.mono ht
  rename_i trippedAt htripped
  split
  · rename_i helapsed
    cases h with
    | unpolled =>
      exact .resetAt trades [] trippedAt now (List.append_nil _).symm htripped helapsed (le_refl now)
        nofun
    | resetAt before since first resetAt htrades hfirst hresetAt hreset _ =>
      refine .resetAt trades [] first now (List.append_nil _).symm ?_ ?_ (le_refl now) nofun
      · rw [htrades, List.foldl_append]
        exact trippedAt_foldl hfirst
      · have := hreset.trans ht
        linarith
  · exact h.mono ht

/-- **Every strategy's state is reached** so from the one it started in. -/
theorem reached_foldl (b : StrategyCircuitBreaker) (strategyId : String)
    (state : StrategyBreakerState) {calls : List Call} {t : Time} (hcalls : UpTo calls t) :
    Reached b state (tradesOf strategyId (outcomes calls)) t
      (calls.foldl (b.stateAfter strategyId) state) := by
  induction calls using List.reverseRecOn generalizing t with
  | nil => exact .unpolled
  | append_singleton calls c ih =>
    obtain ⟨hordered, -, hlast⟩ := List.pairwise_append.mp hcalls.ordered
    have hc : c.time ≤ t := hcalls.le c (by simp)
    have hbefore : Reached b state (tradesOf strategyId (outcomes calls)) c.time
        (calls.foldl (b.stateAfter strategyId) state) :=
      ih ⟨hordered, fun d hd => hlast d hd c (List.mem_singleton_self c)⟩
    rw [List.foldl_append, List.foldl_cons, List.foldl_nil, outcomes, List.filterMap_append,
      tradesOf_append]
    generalize calls.foldl (b.stateAfter strategyId) state = current at hbefore
    refine Reached.mono ?_ hc
    cases c with
    | recordClosedTrade other trade =>
      by_cases h : other = strategyId
      · have hone : tradesOf strategyId ([Call.recordClosedTrade other trade].filterMap
            Call.outcome?) = [trade] := by simp [tradesOf, Call.outcome?, h]
        rw [hone, stateAfter, if_pos h]
        exact hbefore.observed (le_refl _)
      · have hnone : tradesOf strategyId ([Call.recordClosedTrade other trade].filterMap
            Call.outcome?) = [] := by simp [tradesOf, Call.outcome?, h]
        rw [hnone, List.append_nil, stateAfter, if_neg h]
        exact hbefore
    | isTripped other now =>
      have hnone : tradesOf strategyId ([Call.isTripped other now].filterMap Call.outcome?) = [] :=
        rfl
      rw [hnone, List.append_nil, stateAfter]
      split
      · exact hbefore.polled (le_refl _)
      · exact hbefore

/-! ## When polls do not matter -/

/-- The strategy is tripped, trades on after its cool-down, and these trades alone
trip it again, less than a cool-down before `t`. -/
def Rearms (b : StrategyCircuitBreaker) (state : StrategyBreakerState) (trades : List ClosedTrade)
    (t : Time) : Prop :=
  ∃ before next after trippedAt, trades = before ++ next :: after ∧
    (before.foldl b.observed state).trippedAt = some trippedAt ∧
    b.cooldownSeconds ≤ next.closedAt - trippedAt ∧
    b.Suspends ((next :: after).foldl b.observed .new) t

/-- Whatever polls were made in between, the same trades lead to the same verdict. -/
def PollingBlind (b : StrategyCircuitBreaker) (strategyId : String)
    (trades : List (String × ClosedTrade)) (t : Time) : Prop :=
  ∀ calls calls', UpTo calls t → UpTo calls' t → outcomes calls = trades →
    outcomes calls' = trades →
      ((run call b calls).isTripped strategyId t).1 = ((run call b calls').isTripped strategyId t).1

/-- A trip whose cool-down has elapsed suspends no more. -/
theorem not_suspends_of_elapsed {trippedAt resetAt : Time} (htripped : state.trippedAt = some trippedAt)
    (helapsed : b.cooldownSeconds ≤ resetAt - trippedAt) (ht : resetAt ≤ t) :
    ¬b.Suspends state t := by
  rintro ⟨trippedAt', htripped', hwithin⟩
  cases htripped.symm.trans htripped'
  linarith

/-- If the strategy does not trip again, every state reached gives one verdict. -/
theorem Reached.suspends_iff (h : Reached b state trades t reached)
    (hnot : ¬b.Rearms state trades t) :
    b.Suspends reached t ↔ b.Suspends (trades.foldl b.observed state) t := by
  cases h with
  | unpolled => exact Iff.rfl
  | resetAt before since trippedAt resetAt htrades htripped helapsed hreset hsince =>
    have hfirst : (trades.foldl b.observed state).trippedAt = some trippedAt := by
      rw [htrades, List.foldl_append]
      exact trippedAt_foldl htripped
    refine iff_of_false (fun hsuspends => ?_) (not_suspends_of_elapsed hfirst helapsed hreset)
    cases since with
    | nil =>
      obtain ⟨_, hnew, -⟩ := hsuspends
      cases hnew
    | cons next after =>
      refine hnot ⟨before, next, after, trippedAt, htrades, htripped, ?_, hsuspends⟩
      have := hsince next List.mem_cons_self
      linarith

/-! ## One poll can matter -/

/-- The calls that record some outcomes and nothing else. -/
def recorded (trades : List (String × ClosedTrade)) : List Call :=
  trades.map fun o => .recordClosedTrade o.1 o.2

theorem outcomes_recorded (trades : List (String × ClosedTrade)) :
    outcomes (recorded trades) = trades := by
  induction trades with
  | nil => rfl
  | cons o trades ih =>
    show o :: outcomes (recorded trades) = o :: trades
    rw [ih]

theorem foldl_recorded (trades : List (String × ClosedTrade)) (state : StrategyBreakerState) :
    (recorded trades).foldl (b.stateAfter strategyId) state
      = (tradesOf strategyId trades).foldl b.observed state := by
  induction trades generalizing state with
  | nil => rfl
  | cons o trades ih =>
    have hhead : (recorded (o :: trades)).foldl (b.stateAfter strategyId) state
        = (recorded trades).foldl (b.stateAfter strategyId)
          (if o.1 = strategyId then b.observed state o.2 else state) := rfl
    rw [hhead, ih]
    by_cases h : o.1 = strategyId
    · simp [tradesOf, h]
    · simp [tradesOf, h]

theorem upTo_recorded {trades : List (String × ClosedTrade)}
    (hordered : trades.Pairwise fun o o' => o.2.closedAt ≤ o'.2.closedAt)
    (hle : ∀ o ∈ trades, o.2.closedAt ≤ t) : UpTo (recorded trades) t := by
  constructor
  · exact List.pairwise_map.mpr hordered
  · intro c hc
    obtain ⟨o, ho, rfl⟩ := List.mem_map.mp hc
    exact hle o ho

/-- A trade of the strategy, found among all trades. -/
theorem split_of_tradesOf {outcomes : List (String × ClosedTrade)} {before after : List ClosedTrade}
    {next : ClosedTrade} (h : tradesOf strategyId outcomes = before ++ next :: after) :
    ∃ earlier later, outcomes = earlier ++ (strategyId, next) :: later ∧
      tradesOf strategyId earlier = before ∧ tradesOf strategyId later = after := by
  induction outcomes generalizing before with
  | nil => simp [tradesOf] at h
  | cons o outcomes ih =>
    by_cases ho : o.1 = strategyId
    · have hcons : tradesOf strategyId (o :: outcomes) = o.2 :: tradesOf strategyId outcomes := by
        simp [tradesOf, ho]
      rw [hcons] at h
      cases before with
      | nil =>
        rw [List.nil_append, List.cons.injEq] at h
        refine ⟨[], outcomes, ?_, rfl, h.2⟩
        rw [List.nil_append, ← ho, ← h.1]
      | cons first before =>
        rw [List.cons_append, List.cons.injEq] at h
        obtain ⟨earlier, later, rfl, hearlier, hlater⟩ := ih h.2
        refine ⟨o :: earlier, later, rfl, ?_, hlater⟩
        rw [← h.1, ← hearlier]
        simp [tradesOf, ho]
    · have hskip : ∀ l, tradesOf strategyId (o :: l) = tradesOf strategyId l := by
        intro l
        simp [tradesOf, ho]
      rw [hskip] at h
      obtain ⟨earlier, later, rfl, hearlier, hlater⟩ := ih h
      exact ⟨o :: earlier, later, rfl, (hskip _).trans hearlier, hlater⟩

/-- A poll put in between leaves the calls in order. -/
theorem upTo_polled {earlier later : List Call} {next : Call} (hcalls : UpTo (earlier ++ next :: later) t) :
    UpTo (earlier ++ .isTripped strategyId next.time :: next :: later) t := by
  obtain ⟨hearlier, hlater, hboth⟩ := List.pairwise_append.mp hcalls.ordered
  constructor
  · refine List.pairwise_append.mpr ⟨hearlier, List.pairwise_cons.mpr ⟨?_, hlater⟩, ?_⟩
    · intro d hd
      rcases List.mem_cons.mp hd with rfl | hd
      · exact le_refl _
      · exact (List.pairwise_cons.mp hlater).1 d hd
    · intro c hc d hd
      rcases List.mem_cons.mp hd with rfl | hd
      · exact hboth c hc next List.mem_cons_self
      · exact hboth c hc d hd
  · intro c hc
    rcases List.mem_append.mp hc with hc | hc
    · exact hcalls.le c (List.mem_append_left _ hc)
    rcases List.mem_cons.mp hc with rfl | hc
    · exact hcalls.le next (by simp)
    · exact hcalls.le c (List.mem_append_right _ hc)

/-- **When polls do not matter.** For trades in time order up to `t`, the verdict at
`t` is the same whatever polls were made before exactly when the strategy does not
trip again after the cool-down of its first trip. -/
theorem polling_blind_iff (b : StrategyCircuitBreaker) (strategyId : String)
    (trades : List (String × ClosedTrade)) (t : Time)
    (hordered : trades.Pairwise fun o o' => o.2.closedAt ≤ o'.2.closedAt)
    (hle : ∀ o ∈ trades, o.2.closedAt ≤ t) :
    b.PollingBlind strategyId trades t ↔
      ¬b.Rearms (b.stateFor strategyId) (tradesOf strategyId trades) t := by
  have hrecorded := upTo_recorded hordered hle
  constructor
  · rintro hblind ⟨before, next, after, trippedAt, htrades, htripped, helapsed, hsuspends⟩
    obtain ⟨earlier, later, rfl, rfl, rfl⟩ := split_of_tradesOf htrades
    have hsplit : recorded (earlier ++ (strategyId, next) :: later)
        = recorded earlier ++ .recordClosedTrade strategyId next :: recorded later := by
      simp [recorded]
    rw [hsplit] at hrecorded
    -- without a poll the first trip stands, and suspends no more at `t`
    have hunpolled : ((run call b (recorded earlier
        ++ .recordClosedTrade strategyId next :: recorded later)).isTripped strategyId t).1
          ≠ true := by
      rw [Ne, verdict_iff, ← hsplit, foldl_recorded, htrades, List.foldl_append]
      exact not_suspends_of_elapsed (trippedAt_foldl htripped) helapsed (hle (strategyId, next) (by simp))
    -- with one, the later trades trip a new state
    have hpolled : ((run call b (recorded earlier ++ .isTripped strategyId next.closedAt
        :: .recordClosedTrade strategyId next :: recorded later)).isTripped strategyId t).1
          = true := by
      rw [verdict_iff, List.foldl_append, foldl_recorded, List.foldl_cons]
      have hreset : b.stateAfter strategyId
          ((tradesOf strategyId earlier).foldl b.observed (b.stateFor strategyId))
            (.isTripped strategyId next.closedAt) = .new := by
        rw [stateAfter, if_pos rfl, polled, htripped]
        exact if_pos helapsed
      rw [hreset, List.foldl_cons, stateAfter, if_pos rfl, foldl_recorded]
      exact hsuspends
    refine hunpolled ((hblind _ _ hrecorded (upTo_polled hrecorded) ?_ ?_).trans hpolled)
    · rw [← hsplit, outcomes_recorded]
    · have houtcomes := outcomes_recorded (earlier ++ (strategyId, next) :: later)
      rw [hsplit, outcomes, List.filterMap_append] at houtcomes
      rw [outcomes, List.filterMap_append]
      exact houtcomes
  · rintro hnot calls calls' hcalls hcalls' rfl houtcomes
    rw [Bool.eq_iff_iff, verdict_iff, verdict_iff,
      (reached_foldl b strategyId _ hcalls).suspends_iff hnot]
    have hreached := reached_foldl b strategyId (b.stateFor strategyId) hcalls'
    rw [houtcomes] at hreached
    exact (hreached.suspends_iff hnot).symm

end StrategyCircuitBreaker

/-! ### One poll in a loss-making hour -/

namespace Polled

theorem hundred_pos : (0 : ℚ) < 100 := by norm_num

/-- A breaker that trips on one loss, for an hour. -/
def breaker : StrategyCircuitBreaker := ⟨1, 10, 5 / 100, 3600, Dict.empty⟩

/-- A loss of 1 % of the NAV. -/
def loss (now : Time) : ClosedTrade := ⟨-1, 100, now, hundred_pos⟩

end Polled

namespace StrategyCircuitBreaker

/-- One loss trips the strategy once, and polls do not matter. -/
theorem polling_blind_iff_once :
    Polled.breaker.PollingBlind "s" [("s", Polled.loss 0)] 60 := by
  have hordered : [("s", Polled.loss 0)].Pairwise fun o o' => o.2.closedAt ≤ o'.2.closedAt :=
    List.pairwise_singleton _ _
  have hle : ∀ o ∈ [("s", Polled.loss 0)], o.2.closedAt ≤ 60 := by
    intro o ho
    rw [List.mem_singleton.mp ho]
    decide +kernel
  refine (polling_blind_iff Polled.breaker "s" [("s", Polled.loss 0)] 60 hordered hle).mpr ?_
  rintro ⟨before, next, after, trippedAt, htrades, htripped, -⟩
  cases before with
  | nil => cases htripped
  | cons first before => simp [tradesOf] at htrades

/-- A second loss 4000 seconds after the first suspends the strategy if somebody
asked in between. -/
theorem not_polling_blind :
    ¬Polled.breaker.PollingBlind "s" [("s", Polled.loss 0), ("s", Polled.loss 4000)] 4060 := by
  intro hblind
  have hquiet : UpTo [.recordClosedTrade "s" (Polled.loss 0),
      .recordClosedTrade "s" (Polled.loss 4000)] 4060 := by
    constructor
    · simp [Call.time, Polled.loss]
    · simp [Call.time, Polled.loss]
      norm_num
  have hasked : UpTo [.recordClosedTrade "s" (Polled.loss 0), .isTripped "s" 3700,
      .recordClosedTrade "s" (Polled.loss 4000)] 4060 := by
    constructor
    · simp [Call.time, Polled.loss]
      norm_num
    · simp [Call.time, Polled.loss]
      norm_num
  have hsame := hblind _ _ hquiet hasked rfl rfl
  exact absurd hsame (by decide +kernel)

end StrategyCircuitBreaker

end TraderStack
