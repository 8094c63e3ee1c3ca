import TraderStack.Execution.Passes
import TraderStack.Execution.SubmitEffects

/-!
# Where a fill came from

Reconciliation leaves alone what the paper simulator filled, and recognises it
by `is_local_paper_fill`: state FILLED, fee source MODELLED. Four writers set
these two fields. `Sourced` ties them to the paper-fill ids the ledger has
processed and to a journal of who filled which order; each writer keeps it under
its own condition:

- the simulator, if its fill is its order's first and completes it
  (`FillsWhole`);
- a trade row, unless it completes an order none of whose fills carried a fee
  (`TradeKeeps`);
- an order row, unless it reports such an order as filled (`OrderKeeps`);
- the submitter, always.
-/

namespace TraderStack

open Lib

/-- Who filled an order. -/
inductive FillOrigin where
  | simulator
  | venue
deriving DecidableEq, Repr

/-- The keys of the filled orders, each with who filled it, in order. -/
abbrev Journal := List (String × FillOrigin)

/-! ## Paper-fill ids -/

theorem paperFillId_injective : Function.Injective paperFillId := by
  intro a b h
  have hchars := congrArg String.toList h
  simp only [paperFillId, String.toList_append, List.append_cancel_left_eq] at hchars
  exact String.toList_injective hchars

theorem isPaperSimulatedFill_paperFillId (k : String) :
    isPaperSimulatedFill (paperFillId k) = true := by
  rw [isPaperSimulatedFill, paperFillId, String.toList_append, List.isPrefixOf_iff_prefix]
  exact List.prefix_append _ _

/-- **The discriminator agrees with the ids**: what is stored under a key answers
to it, an order is a local paper fill exactly if its paper-fill id was processed,
and the journal never shows both origins for one key. -/
structure Sourced (l : ExecutionLedger) (j : Journal) : Prop where
  keyed : ∀ k o, l.orders.get? k = some o → o.clientOrderId = some k ∧ k ≠ ""
  stored : ∀ k, paperFillId k ∈ l.processedFillIds → l.orders.get? k ≠ none
  journaled : ∀ k origin, (k, origin) ∈ j → l.orders.get? k ≠ none
  simulated : ∀ k o, l.orders.get? k = some o → paperFillId k ∈ l.processedFillIds →
    isLocalPaperFill o = true ∧ (k, .simulator) ∈ j ∧ (k, .venue) ∉ j
  venue : ∀ k o, l.orders.get? k = some o → paperFillId k ∉ l.processedFillIds →
    isLocalPaperFill o = false ∧ (k, .simulator) ∉ j
  untouched : ∀ k o, l.orders.get? k = some o → o.feeSource = none → (k, .venue) ∉ j

theorem sourced_empty : Sourced .empty [] where
  keyed := fun _ _ h => by simp [ExecutionLedger.empty] at h
  stored := fun _ h => by simp [ExecutionLedger.empty] at h
  journaled := nofun
  simulated := fun _ _ _ h => by simp [ExecutionLedger.empty] at h
  venue := fun _ _ h => by simp [ExecutionLedger.empty] at h
  untouched := fun _ _ h => by simp [ExecutionLedger.empty] at h

variable {l : ExecutionLedger} {j : Journal} {o o' : ExecutionOrder} {fill : ExecutionFill}
  {now : Time}

theorem Sourced.idempotencyKey (h : Sourced l j) {k : String} (hget : l.orders.get? k = some o) :
    o.idempotencyKey = k := by
  obtain ⟨hid, hne⟩ := h.keyed k o hget
  unfold ExecutionOrder.idempotencyKey
  rw [hid]
  simp only
  rw [if_neg hne]

/-- A change of an order that keeps its client order id, what it is to the
discriminator, and its fee source. -/
theorem Sourced.put (h : Sourced l j) (hget : l.orders.get? o.orderId = some o)
    (hid : o'.orderId = o.orderId) (hclient : o'.clientOrderId = o.clientOrderId)
    (hlocal : isLocalPaperFill o' = isLocalPaperFill o) (hfee : o'.feeSource = o.feeSource) :
    Sourced (l.put o') j := by
  -- every key holds what it held, or the changed order in place of the old one
  have hcases : ∀ k x, (l.put o').orders.get? k = some x →
      (k = o.orderId ∧ x = o') ∨ (k ≠ o.orderId ∧ l.orders.get? k = some x) := by
    intro k x hx
    rw [← hid]
    exact ExecutionLedger.get?_put_cases hx
  refine ⟨?_, fun k hk => ExecutionLedger.get?_put_ne_none (h.stored k hk),
    fun k origin hk => ExecutionLedger.get?_put_ne_none (h.journaled k origin hk), ?_, ?_, ?_⟩
  · intro k x hx
    rcases hcases k x hx with ⟨rfl, rfl⟩ | ⟨-, hx⟩
    · rw [hclient]
      exact h.keyed _ _ hget
    · exact h.keyed k x hx
  · intro k x hx hk
    rcases hcases k x hx with ⟨rfl, rfl⟩ | ⟨-, hx⟩
    · rw [hlocal]
      exact h.simulated _ _ hget hk
    · exact h.simulated k x hx hk
  · intro k x hx hk
    rcases hcases k x hx with ⟨rfl, rfl⟩ | ⟨-, hx⟩
    · rw [hlocal]
      exact h.venue _ _ hget hk
    · exact h.venue k x hx hk
  · intro k x hx hk
    rcases hcases k x hx with ⟨rfl, rfl⟩ | ⟨-, hx⟩
    · rw [hfee] at hk
      exact h.untouched _ _ hget hk
    · exact h.untouched k x hx hk

/-- Amending an order is invisible to the discriminator. -/
theorem Sourced.amend (h : Sourced l j) (hget : l.orders.get? o.orderId = some o)
    (ha : Amends o o') : Sourced (l.put o') j :=
  h.put hget ha.orderId ha.clientOrderId ha.isLocalPaperFill ha.feeSource

/-- A new order has nobody's fills. -/
theorem Sourced.register (h : Sourced l j) {plan : ExecutionPlan} {p : ExecutionPlanner}
    (hplan : plan.clientOrderId = p.clientOrderIdFor plan.decisionId)
    (hnone : l.orders.get? plan.clientOrderId = none) :
    Sourced (l.put (PaperFillSimulator.plannedOrder plan now)) j := by
  have hne : plan.clientOrderId ≠ "" := by
    intro hempty
    have hchars := congrArg String.toList (hplan.symm.trans hempty)
    simp [ExecutionPlanner.clientOrderIdFor, String.toList_append] at hchars
  have hunknown : ∀ origin, (plan.clientOrderId, origin) ∉ j :=
    fun origin hmem => h.journaled _ _ hmem hnone
  refine ⟨?_, fun k hk => ExecutionLedger.get?_put_ne_none (h.stored k hk),
    fun k origin hk => ExecutionLedger.get?_put_ne_none (h.journaled k origin hk), ?_, ?_, ?_⟩
  · intro k x hx
    rcases ExecutionLedger.get?_put_cases hx with ⟨rfl, rfl⟩ | ⟨-, hx⟩
    · exact ⟨rfl, hne⟩
    · exact h.keyed k x hx
  · intro k x hx hk
    rcases ExecutionLedger.get?_put_cases hx with ⟨rfl, rfl⟩ | ⟨-, hx⟩
    · exact absurd hnone (h.stored _ hk)
    · exact h.simulated k x hx hk
  · intro k x hx hk
    rcases ExecutionLedger.get?_put_cases hx with ⟨rfl, rfl⟩ | ⟨-, hx⟩
    · exact ⟨rfl, hunknown _⟩
    · exact h.venue k x hx hk
  · intro k x hx hk
    rcases ExecutionLedger.get?_put_cases hx with ⟨rfl, rfl⟩ | ⟨-, hx⟩
    · exact hunknown _
    · exact h.untouched k x hx hk

/-- A venue fill on an order the simulator did not fill, which does not make it
look as if it had. -/
theorem Sourced.recordVenue (h : Sourced l j) (hget : l.orders.get? o.orderId = some o)
    (hid : isPaperSimulatedFill fill.fillId = false) (hlocal : isLocalPaperFill o = false)
    (hkeeps : isLocalPaperFill (o.withFill fill now) = false) :
    Sourced ((l.put (o.withFill fill now)).markProcessed fill.fillId)
      (j ++ [(o.orderId, .venue)]) := by
  have hpaper : ∀ k, paperFillId k ∈
      ((l.put (o.withFill fill now)).markProcessed fill.fillId).processedFillIds ↔
        paperFillId k ∈ l.processedFillIds := by
    intro k
    rw [ExecutionLedger.mem_processed_markProcessed, ExecutionLedger.processed_put]
    refine ⟨fun hk => hk.resolve_left fun heq => ?_, .inr⟩
    rw [← heq, isPaperSimulatedFill_paperFillId] at hid
    cases hid
  -- the order was not the simulator's before
  have hno : paperFillId o.orderId ∉ l.processedFillIds := by
    intro hk
    rw [(h.simulated _ _ hget hk).1] at hlocal
    cases hlocal
  refine ⟨?_, ?_, ?_, ?_, ?_, ?_⟩
  · intro k x hx
    rcases ExecutionLedger.get?_recorded hx with ⟨hx, -⟩ | ⟨rfl, rfl⟩
    · exact h.keyed k x hx
    · exact ⟨(h.keyed _ _ hget).1, (h.keyed _ _ hget).2⟩
  · intro k hk
    rw [ExecutionLedger.orders_markProcessed]
    exact ExecutionLedger.get?_put_ne_none (h.stored k ((hpaper k).mp hk))
  · intro k origin hk
    rw [ExecutionLedger.orders_markProcessed]
    rcases List.mem_append.mp hk with hk | hk
    · exact ExecutionLedger.get?_put_ne_none (h.journaled k origin hk)
    · cases List.mem_singleton.mp hk
      rw [ExecutionLedger.get?_put, ExecutionOrder.withFill_orderId, if_pos rfl]
      exact nofun
  · intro k x hx hk
    rw [hpaper] at hk
    rcases ExecutionLedger.get?_recorded hx with ⟨hx, hne⟩ | ⟨rfl, rfl⟩
    · obtain ⟨hl, hsim, hj⟩ := h.simulated k x hx hk
      refine ⟨hl, List.mem_append_left _ hsim, fun hmem => ?_⟩
      rcases List.mem_append.mp hmem with hmem | hmem
      · exact hj hmem
      · cases List.mem_singleton.mp hmem
        exact hne rfl
    · exact absurd hk hno
  · intro k x hx hk
    rw [hpaper] at hk
    have hj : ∀ {y}, l.orders.get? k = some y → (k, FillOrigin.simulator) ∉
        j ++ [(o.orderId, .venue)] := by
      intro y hy hmem
      rcases List.mem_append.mp hmem with hmem | hmem
      · exact (h.venue k y hy hk).2 hmem
      · cases List.mem_singleton.mp hmem
    rcases ExecutionLedger.get?_recorded hx with ⟨hx, -⟩ | ⟨rfl, rfl⟩
    · exact ⟨(h.venue k x hx hk).1, hj hx⟩
    · exact ⟨hkeeps, hj hget⟩
  · intro k x hx hk hmem
    rcases ExecutionLedger.get?_recorded hx with ⟨hx, hne⟩ | ⟨rfl, rfl⟩
    · rcases List.mem_append.mp hmem with hmem | hmem
      · exact h.untouched k x hx hk hmem
      · cases List.mem_singleton.mp hmem
        exact hne rfl
    · cases hk

/-- The simulator's fill, as the order's first, making it a local paper fill. -/
theorem Sourced.recordSimulated (h : Sourced l j) (hget : l.orders.get? o.orderId = some o)
    (hid : fill.fillId = paperFillId o.orderId) (hfirst : o.feeSource = none)
    (hlocal : isLocalPaperFill (o.withFill fill now) = true) :
    Sourced ((l.put (o.withFill fill now)).markProcessed fill.fillId)
      (j ++ [(o.orderId, .simulator)]) := by
  have hpaper : ∀ k, paperFillId k ∈
      ((l.put (o.withFill fill now)).markProcessed fill.fillId).processedFillIds ↔
        k = o.orderId ∨ paperFillId k ∈ l.processedFillIds := by
    intro k
    rw [ExecutionLedger.mem_processed_markProcessed, ExecutionLedger.processed_put, hid]
    exact or_congr_left paperFillId_injective.eq_iff
  have hvenue : ∀ {k}, (k, FillOrigin.venue) ∈ j ++ [(o.orderId, .simulator)] →
      (k, FillOrigin.venue) ∈ j := by
    intro k hmem
    rcases List.mem_append.mp hmem with hmem | hmem
    · exact hmem
    · cases List.mem_singleton.mp hmem
  refine ⟨?_, ?_, ?_, ?_, ?_, ?_⟩
  · intro k x hx
    rcases ExecutionLedger.get?_recorded hx with ⟨hx, -⟩ | ⟨rfl, rfl⟩
    · exact h.keyed k x hx
    · exact ⟨(h.keyed _ _ hget).1, (h.keyed _ _ hget).2⟩
  · intro k hk
    rw [ExecutionLedger.orders_markProcessed]
    refine ExecutionLedger.get?_put_ne_none ?_
    rcases (hpaper k).mp hk with rfl | hk
    · rw [hget]
      exact nofun
    · exact h.stored k hk
  · intro k origin hk
    rw [ExecutionLedger.orders_markProcessed]
    refine ExecutionLedger.get?_put_ne_none ?_
    rcases List.mem_append.mp hk with hk | hk
    · exact h.journaled k origin hk
    · cases List.mem_singleton.mp hk
      rw [hget]
      exact nofun
  · intro k x hx hk
    rcases ExecutionLedger.get?_recorded hx with ⟨hx, hne⟩ | ⟨rfl, rfl⟩
    · obtain ⟨hl, hsim, hj⟩ := h.simulated k x hx (((hpaper k).mp hk).resolve_left hne)
      exact ⟨hl, List.mem_append_left _ hsim, fun hmem => hj (hvenue hmem)⟩
    · refine ⟨hlocal, List.mem_append_right _ (List.mem_singleton.mpr rfl), fun hmem => ?_⟩
      exact h.untouched _ _ hget hfirst (hvenue hmem)
  · intro k x hx hk
    rw [hpaper, not_or] at hk
    rcases ExecutionLedger.get?_recorded hx with ⟨hx, -⟩ | ⟨rfl, rfl⟩
    · obtain ⟨hl, hj⟩ := h.venue k x hx hk.2
      refine ⟨hl, fun hmem => ?_⟩
      rcases List.mem_append.mp hmem with hmem | hmem
      · exact hj hmem
      · cases List.mem_singleton.mp hmem
        exact hk.1 rfl
    · exact absurd rfl hk.1
  · intro k x hx hk hmem
    rcases ExecutionLedger.get?_recorded hx with ⟨hx, -⟩ | ⟨rfl, rfl⟩
    · exact h.untouched k x hx hk (hvenue hmem)
    · cases hk

end TraderStack
