import TraderStack.Acceptance.Report
import TraderStack.Execution.FixedPoint

/-!
# When the report says a fill happened

`last_updated_at` is written by every state change and every fill, and read by
the report as the time an order traded. A pass that re-asserts an order's status
is a state change to the state it is in, so it dates the order anew.

* `restamps_iff`: a pass with nothing to do leaves the ledger alone exactly if
  every order it re-asserts bears its time already
* `Timed.ordered_run`: in a run that changes the state of no order that has
  traded, the report is ordered by execution
-/

namespace TraderStack

open Lib

/-! ## Re-asserting passes -/

/-- The order an order row re-asserts: it is no local paper fill, and its status
is the one reported (reconcile.py:177–192). -/
def reasserts (l : ExecutionLedger) (row : Row) : Option ExecutionOrder :=
  match row.requiredText ["order_id", "id"] with
  | .error _ => none
  | .ok identifier => (l.findOrder identifier).filter fun o =>
    !isLocalPaperFill o && mapState (Text.lower (row.text ["status"])) = some o.state

theorem get?_of_reasserts {l : ExecutionLedger} {row : Row} {o : ExecutionOrder}
    (h : reasserts l row = some o) : l.orders.get? o.orderId = some o := by
  unfold reasserts at h
  split at h
  · cases h
  · exact ExecutionLedger.get?_of_findOrder (Option.filter_eq_some_iff.mp h).1

/-- Every order the rows re-assert bears the time of the pass. -/
def RowsQuiet (l : ExecutionLedger) (now : Time) (rows : List Row) : Prop :=
  ∀ row ∈ rows, ∀ o ∈ reasserts l row, o.lastUpdatedAt = now

namespace Reconciler

variable {c : Reconciler} {row : Row} {now : Time} {l l' : ExecutionLedger}

/-- What a row with nothing to do does: nothing, or it stamps the order it
re-asserts. -/
theorem orderRow_done_cases (hdone : OrderDone l row)
    {conflict : Option (String × OrderLifecycleState × String)}
    (h : orderRow row now l = (.ok conflict, l')) :
    (reasserts l row = none ∧ l' = l) ∨
      ∃ o, reasserts l row = some o ∧ l.orders.get? o.orderId = some o ∧
        l' = l.put { o with lastUpdatedAt := now } := by
  obtain ⟨identifier, hid, hdone⟩ := hdone
  unfold reasserts
  rw [hid]
  dsimp only
  cases hfind : l.findOrder identifier with
  | none =>
    left
    unfold orderRow at h
    rw [hid] at h
    dsimp only at h
    rw [hfind] at h
    cases h
    exact ⟨rfl, rfl⟩
  | some o =>
    have hget := ExecutionLedger.get?_of_findOrder hfind
    unfold orderRow at h
    rw [hid] at h
    dsimp only at h
    rw [hfind] at h
    dsimp only at h
    by_cases hlocal : isLocalPaperFill o = true
    · rw [if_pos hlocal] at h
      cases h
      exact .inl ⟨by simp [hlocal], rfl⟩
    rw [if_neg hlocal] at h
    cases hstate : mapState (Text.lower (row.text ["status"])) with
    | none =>
      rw [hstate] at h
      cases h
      exact .inl ⟨by simp, rfl⟩
    | some state =>
      rw [hstate] at h
      dsimp only at h
      by_cases hlegal : o.state.isLegalTransition state = true
      · -- within reach means re-asserted
        have hsame : state = o.state := by
          rcases hdone o hfind with hdone | hdone
          · exact absurd hdone hlocal
          · exact hdone state hstate hlegal
        subst hsame
        have hself : l.findOrder o.orderId = some o := by
          unfold ExecutionLedger.findOrder
          rw [hget]
        rw [if_pos hlegal] at h
        unfold ExecutionLedger.updateOrderState ExecutionOrder.transition at h
        rw [hself] at h
        dsimp only at h
        rw [if_pos hlegal] at h
        refine .inr ⟨o, ?_, hget, (congrArg Prod.snd h).symm⟩
        simp [hlocal]
      · rw [if_neg hlegal] at h
        have hother : state ≠ o.state := by
          rintro rfl
          exact hlegal (OrderLifecycleState.isLegalTransition_iff.mpr (.refl _))
        left
        refine ⟨by simp [hother], ?_⟩
        split at h <;> (cases h; rfl)

/-- Stamping an order changes the stamps of what is re-asserted only. -/
theorem reasserts_put {o x : ExecutionOrder} (hget : l.orders.get? o.orderId = some o)
    (h : reasserts l row = some x) (now : Time) :
    ∃ y, reasserts (l.put { o with lastUpdatedAt := now }) row = some y ∧
      y.orderId = x.orderId := by
  unfold reasserts at h ⊢
  cases hid : row.requiredText ["order_id", "id"] with
  | error e =>
    rw [hid] at h
    cases h
  | ok identifier =>
    rw [hid] at h
    dsimp only at h ⊢
    obtain ⟨hfind, hx⟩ := Option.filter_eq_some_iff.mp h
    have hput := @ExecutionLedger.findOrder_put l o { o with lastUpdatedAt := now } hget rfl
      (fun _ => rfl) identifier
    rw [hput, hfind, Option.map_some]
    by_cases hk : x.orderId = o.orderId
    · have hsame : x = o := by
        have hstored := ExecutionLedger.get?_of_findOrder hfind
        rw [hk, hget] at hstored
        exact (Option.some.inj hstored).symm
      subst hsame
      rw [if_pos rfl]
      exact ⟨_, Option.filter_eq_some_iff.mpr ⟨rfl, hx⟩, rfl⟩
    · rw [if_neg hk]
      exact ⟨x, Option.filter_eq_some_iff.mpr ⟨rfl, hx⟩, rfl⟩

/-- What is stamped with the pass's time stays so, and every re-asserted order is
stamped. -/
theorem stamped_of_done (now : Time) (rows : List Row) :
    ∀ {l l' : ExecutionLedger} {conflicts : List (String × OrderLifecycleState × String)},
      (∀ row ∈ rows, OrderDone l row) → reconcileOrders now rows l = (.ok conflicts, l') →
      (∀ k, (l.orders.get? k).any (fun o => o.lastUpdatedAt = now) = true →
        (l'.orders.get? k).any (fun o => o.lastUpdatedAt = now) = true) ∧
      ∀ row ∈ rows, ∀ o, reasserts l row = some o →
        (l'.orders.get? o.orderId).any (fun o => o.lastUpdatedAt = now) = true := by
  induction rows with
  | nil =>
    intro l l' conflicts _ h
    cases h
    exact ⟨fun _ h => h, nofun⟩
  | cons row rows ih =>
    intro l l' conflicts hdone h
    obtain ⟨conflict, l₁, hrow, -⟩ := orderRow_of_done (hdone row List.mem_cons_self) now
    obtain ⟨hon, -⟩ := orderRow_settles hrow
    unfold reconcileOrders at h
    rw [hrow] at h
    dsimp only at h
    rcases hrest : reconcileOrders now rows l₁ with ⟨_ | cs, l₂⟩
    · rw [hrest] at h
      cases h
    rw [hrest] at h
    cases h
    obtain ⟨hstay, hstamp⟩ := ih (fun x hx => hon.orderDone (hdone x (List.mem_cons_of_mem _ hx)))
      hrest
    rcases orderRow_done_cases (hdone row List.mem_cons_self) hrow with
      ⟨hnone, rfl⟩ | ⟨o, ho, hget, rfl⟩
    · refine ⟨hstay, fun x hx y hy => ?_⟩
      rcases List.mem_cons.mp hx with rfl | hx
      · rw [hnone] at hy
        cases hy
      · exact hstamp x hx y hy
    · have hput : ∀ k, (l.orders.get? k).any (fun o => o.lastUpdatedAt = now) = true →
          ((l.put { o with lastUpdatedAt := now }).orders.get? k).any
            (fun o => o.lastUpdatedAt = now) = true := by
        intro k hk
        rw [ExecutionLedger.get?_put]
        split
        · simp
        · exact hk
      refine ⟨fun k hk => hstay k (hput k hk), fun x hx y hy => ?_⟩
      rcases List.mem_cons.mp hx with rfl | hx
      · rw [ho] at hy
        cases hy
        refine hstay _ ?_
        rw [ExecutionLedger.get?_put, if_pos rfl]
        simp
      · obtain ⟨z, hz, hsame⟩ := reasserts_put hget hy now
        rw [← hsame]
        exact hstamp x hx z hz

/-- Stamping an order with the time it bears changes nothing. -/
theorem reconcileOrders_of_quiet (now : Time) (rows : List Row)
    (hdone : ∀ row ∈ rows, OrderDone l row) (hquiet : RowsQuiet l now rows) :
    ∃ conflicts, reconcileOrders now rows l = (.ok conflicts, l) := by
  induction rows with
  | nil => exact ⟨[], rfl⟩
  | cons row rows ih =>
    obtain ⟨conflict, l₁, hrow, -⟩ := orderRow_of_done (hdone row List.mem_cons_self) now
    have hsame : l₁ = l := by
      rcases orderRow_done_cases (hdone row List.mem_cons_self) hrow with
        ⟨-, rfl⟩ | ⟨o, ho, hget, rfl⟩
      · rfl
      · have hstamp := hquiet row List.mem_cons_self o ho
        have heq : { o with lastUpdatedAt := now } = o := by rw [← hstamp]
        rw [heq]
        exact ExecutionLedger.put_of_get? hget
    subst hsame
    obtain ⟨conflicts, hrest⟩ := ih (fun x hx => hdone x (List.mem_cons_of_mem _ hx))
      fun x hx => hquiet x (List.mem_cons_of_mem _ hx)
    refine ⟨conflict.toList ++ conflicts, ?_⟩
    unfold reconcileOrders
    rw [hrow]
    dsimp only
    rw [hrest]
    rfl

end Reconciler

/-- A pass: its payloads and its time. -/
structure Pass where
  ordersPayload : Payload
  tradesPayload : Payload
  now : Time

namespace Pass

variable {c : Reconciler} {p : Pass} {a : Accounts}

/-- The records after the pass. -/
def step (c : Reconciler) (a : Accounts) (p : Pass) : Accounts :=
  (c.reconcileState p.ordersPayload p.tradesPayload p.now a).2

/-- The pass only re-asserts what the ledger knows. -/
def Reasserts (c : Reconciler) (l : ExecutionLedger) (p : Pass) : Prop :=
  Reconciler.PassDone c p.ordersPayload p.tradesPayload l

/-- Every order the pass re-asserts bears its time. -/
def Quiet (l : ExecutionLedger) (p : Pass) : Prop :=
  ∀ rows, payloadRows p.ordersPayload = .ok rows → RowsQuiet l p.now rows

/-- A pass with nothing to do leaves the book alone, and the ledger exactly if
every order it re-asserts bears its time. -/
theorem step_iff (h : p.Reasserts c a.ledger) :
    (step c a p).book = a.book ∧ ((step c a p).ledger = a.ledger ↔ p.Quiet a.ledger) := by
  obtain ⟨result, l, hran, -, -⟩ := Reconciler.reconcileState_of_done h p.now
  obtain ⟨⟨rows, hrows, horder⟩, trades, htrades, htrade⟩ := h
  have hstep : step c a p = { a with ledger := l } := congrArg Prod.snd hran
  rw [hstep]
  refine ⟨rfl, ?_⟩
  show l = a.ledger ↔ _
  -- the pass is its order rows
  obtain ⟨conflicts, l', hord, -⟩ := Reconciler.reconcileOrders_of_done p.now rows a.ledger horder
  have hsame : l = l' := by
    unfold Reconciler.reconcileState at hran
    rw [hrows, htrades] at hran
    dsimp only at hran
    rw [Reconciler.reconcileTrades_of_done p.now trades htrade] at hran
    dsimp only at hran
    rw [hord] at hran
    exact (congrArg (fun ran => ran.2.ledger) hran).symm
  subst hsame
  constructor
  · rintro rfl rows' hrows' row hrow o ho
    have hrows'' : rows = rows' := Except.ok.inj (hrows.symm.trans hrows')
    subst hrows''
    have hstamp := (Reconciler.stamped_of_done p.now rows horder hord).2 row hrow o ho
    rw [get?_of_reasserts ho] at hstamp
    simpa using hstamp
  · intro hquiet
    obtain ⟨conflicts', hord'⟩ :=
      Reconciler.reconcileOrders_of_quiet p.now rows horder (hquiet rows hrows)
    exact congrArg Prod.snd (hord.symm.trans hord')

/-- **Any number of re-asserting passes** leaves every record unchanged exactly if
none of them re-asserts an order at a time other than its stamp. -/
theorem unchanged_iff (passes : List Pass) (h : ∀ p ∈ passes, p.Reasserts c a.ledger) :
    (∀ pre post, passes = pre ++ post → (run (step c) a pre).ledger = a.ledger) ↔
      ∀ p ∈ passes, p.Quiet a.ledger := by
  induction passes with
  | nil =>
    refine ⟨fun _ => nofun, fun _ pre post hes => ?_⟩
    have hnil : pre = [] := (List.append_eq_nil_iff.mp hes.symm).1
    rw [hnil]
    rfl
  | cons p passes ih =>
    obtain ⟨hbook, hiff⟩ := step_iff (h p List.mem_cons_self)
    have ih := ih fun q hq => h q (List.mem_cons_of_mem _ hq)
    -- a pass that leaves the ledger alone leaves the records alone
    have hstays : (step c a p).ledger = a.ledger → step c a p = a := by
      intro hledger
      rcases hstep : step c a p with ⟨l, b⟩
      rw [hstep] at hbook hledger
      cases hbook
      cases hledger
      rfl
    constructor
    · intro hall
      have hfirst : (step c a p).ledger = a.ledger := hall [p] passes rfl
      intro q hq
      rcases List.mem_cons.mp hq with rfl | hq
      · exact hiff.mp hfirst
      · refine ih.mp (fun pre post hes => ?_) q hq
        have hrest := hall (p :: pre) post (by rw [hes, List.cons_append])
        rw [run_cons, hstays hfirst] at hrest
        exact hrest
    · intro hquiet pre post hes
      have hfirst := hiff.mpr (hquiet p List.mem_cons_self)
      cases pre with
      | nil => rfl
      | cons q pre =>
        obtain ⟨rfl, hrest⟩ := List.cons_eq_cons.mp (hes.trans List.cons_append)
        rw [run_cons, hstays hfirst]
        exact ih.mpr (fun r hr => hquiet r (List.mem_cons_of_mem _ hr)) pre post hrest

end Pass

/-! ## Fills dated by their execution -/

/-- What happens to the records of fills: a call on the ledger, among them those
of the submitter, the simulator and the hedges, or a reconciliation pass. -/
inductive RecordsEvent where
  | call (call : LedgerCall) (now : Time)
  | reconcile (pass : Pass)

/-- The records, and when which order traded. -/
structure Timed where
  accounts : Accounts
  filledAt : List (String × Time)

/-- An order row that changes the state of no order that has traded. -/
def StatusKeeps (l : ExecutionLedger) (row : Row) : Prop :=
  ∀ state ∈ mapState (Text.lower (row.text ["status"])),
    ∀ o ∈ l.findOrder (row.text ["order_id", "id"]),
      isLocalPaperFill o = false → o.state.isLegalTransition state = true → o.filledQuantity = 0

instance (l : ExecutionLedger) (row : Row) : Decidable (StatusKeeps l row) := by
  unfold StatusKeeps
  infer_instance

namespace Timed

variable {c : Reconciler} {t : Timed}

/-- An empty ledger over a book. -/
def start (book : PortfolioBook) : Timed := ⟨⟨.empty, book⟩, []⟩

/-- The records after an event. -/
def step (c : Reconciler) (t : Timed) : RecordsEvent → Timed
  | .call call now =>
    let ran := call.perform now t.accounts.ledger
    { accounts := { t.accounts with ledger := ran.world }
      filledAt := t.filledAt ++
        (Logged.recordedBy call t.accounts.ledger ran).toList.map fun r => (r.key, now) }
  | .reconcile pass =>
    { accounts := pass.step c t.accounts
      filledAt := t.filledAt ++
        (c.recordedByPass pass.ordersPayload pass.tradesPayload pass.now t.accounts).map fun r =>
          (r.1, pass.now) }

/-- When the order under a key last traded. -/
def executedAt (t : Timed) (key : String) : Option Time :=
  ((t.filledAt.filter fun e => e.1 = key).map Prod.snd).getLast?

/-- The report lists the fills by the time they executed. -/
def Ordered (t : Timed) (asset : Option String) : Prop :=
  (fillsFromLedger t.accounts.ledger asset).Pairwise fun f g =>
    ∀ s ∈ t.executedAt f.orderId, ∀ u ∈ t.executedAt g.orderId, s ≤ u

instance (t : Timed) (asset : Option String) : Decidable (t.Ordered asset) :=
  inferInstanceAs (Decidable (List.Pairwise _ _))

/-- The event changes the state of no order that has traded. -/
def KeepsDates (c : Reconciler) (t : Timed) : RecordsEvent → Prop
  | .call call _ => ∀ m ∈ call.moves, ∀ o ∈ t.accounts.ledger.findOrder m.1,
    o.state.isLegalTransition m.2 = true → o.filledQuantity = 0
  | .reconcile pass => c.AlongPass pass.now (fun _ _ => True) StatusKeeps pass.ordersPayload
    pass.tradesPayload t.accounts

instance (c : Reconciler) (t : Timed) : ∀ e, Decidable (KeepsDates c t e)
  | .call call _ => inferInstanceAs (Decidable (∀ m ∈ call.moves, ∀ o ∈ _, _ → _))
  | .reconcile _ => inferInstanceAs (Decidable (c.AlongPass _ _ _ _ _ _))

/-- An order that has traded is dated by its last fill. -/
def Dated (l : ExecutionLedger) (filledAt : List (String × Time)) : Prop :=
  ∀ k o, l.orders.get? k = some o → o.filledQuantity ≠ 0 →
    ((filledAt.filter fun e => e.1 = k).map Prod.snd).getLast? = some o.lastUpdatedAt

variable {l : ExecutionLedger} {dates : List (String × Time)} {o o' : ExecutionOrder} {now : Time}

theorem dated_empty (dates : List (String × Time)) : Dated .empty dates := by
  intro k o h
  simp [ExecutionLedger.empty] at h

/-- A change that keeps the date, or of an order that has not traded. -/
theorem Dated.put (h : Dated l dates) (hget : l.orders.get? o.orderId = some o)
    (hid : o'.orderId = o.orderId) (hfilled : o'.filledQuantity = o.filledQuantity)
    (hdate : o'.lastUpdatedAt = o.lastUpdatedAt ∨ o.filledQuantity = 0) :
    Dated (l.put o') dates := by
  intro k x hx hne
  rcases ExecutionLedger.get?_put_cases hx with ⟨rfl, rfl⟩ | ⟨-, hx⟩
  · rw [hfilled] at hne
    rw [hdate.resolve_right hne, hid]
    exact h _ _ hget hne
  · exact h k x hx hne

/-- A new order has not traded. -/
theorem Dated.register (h : Dated l dates) (ho : o.Unfilled) : Dated (l.put o) dates := by
  intro k x hx hne
  rcases ExecutionLedger.get?_put_cases hx with ⟨rfl, rfl⟩ | ⟨-, hx⟩
  · exact absurd ho.filledQuantity hne
  · exact h k x hx hne

/-- A fill dates its order. -/
theorem Dated.record (h : Dated l dates) (o : ExecutionOrder) (fill : ExecutionFill) (now : Time) :
    Dated ((l.put (o.withFill fill now)).markProcessed fill.fillId)
      (dates ++ [(o.orderId, now)]) := by
  intro k x hx hne
  rw [List.filter_append, List.map_append]
  rcases ExecutionLedger.get?_recorded hx with ⟨hx, hk⟩ | ⟨rfl, rfl⟩
  · have hother : ¬o.orderId = k := Ne.symm hk
    simpa [hother] using h k x hx hne
  · simp only [List.filter_cons, decide_true, if_true, List.filter_nil, List.map_cons,
      List.map_nil, List.getLast?_concat]
    rfl

theorem Dated.rewritten {l' : ExecutionLedger} (h : Dated l dates)
    (hto : Rewritten (fun o o' => o'.filledQuantity = o.filledQuantity ∧
      (o'.lastUpdatedAt = o.lastUpdatedAt ∨ o.filledQuantity = 0)) l l') : Dated l' dates := by
  induction hto with
  | refl => exact h
  | put o o' _ hget hid hto ih => exact ih.put hget hid hto.1 hto.2

/-- A call that changes the state of no order that has traded. -/
theorem dated_call {call : LedgerCall} (h : Dated t.accounts.ledger t.filledAt)
    (hkeeps : KeepsDates c t (.call call now)) :
    Dated (step c t (.call call now)).accounts.ledger (step c t (.call call now)).filledAt := by
  have hallows : LedgerCall.Allows (fun o o' => o'.filledQuantity = o.filledQuantity ∧
      (o'.lastUpdatedAt = o.lastUpdatedAt ∨ o.filledQuantity = 0)) t.accounts.ledger now call := by
    refine ⟨fun o o' h => ⟨h.filledQuantity, .inl h.lastUpdatedAt⟩, ?_⟩
    intro identifier state hmoves o hfind hlegal
    exact ⟨rfl, .inr (hkeeps (identifier, state) hmoves o hfind hlegal)⟩
  have heffect := LedgerCall.perform_effect hallows
  unfold step
  dsimp only
  generalize call.perform now t.accounts.ledger = ran at heffect ⊢
  cases heffect with
  | raised _ e =>
    have hnone : Logged.recordedBy call t.accounts.ledger ⟨.error e, t.accounts.ledger, []⟩ = none := by
      cases call <;> rfl
    rw [hnone]
    simpa using h
  | rewritten _ l' hto =>
    have hnone : Logged.recordedBy call t.accounts.ledger ⟨.ok false, l', []⟩ = none := by
      cases call <;> rfl
    rw [hnone]
    simpa using h.rewritten hto
  | registered o hnone => simpa [Logged.recordedBy] using h.register o.property
  | recorded fill o hacc =>
    rw [Logged.recordedBy_recorded hacc now]
    exact h.record o fill now

/-- So does a pass whose order rows do not. -/
theorem dated_pass {pass : Pass} (h : Dated t.accounts.ledger t.filledAt)
    (hkeeps : KeepsDates c t (.reconcile pass)) :
    Dated (step c t (.reconcile pass)).accounts.ledger (step c t (.reconcile pass)).filledAt := by
  refine Reconciler.reconcileState_invariant (j := [])
    (I := fun a j => Dated a.ledger (t.filledAt ++ j.map fun r => (r.1, pass.now))) ?_ ?_ hkeeps
    (by simpa using h)
  · intro a j row _ h
    rcases hrow : c.tradeRow row pass.now a with ⟨r, a'⟩
    rcases Reconciler.tradeRow_cases hrow with ⟨rfl, hnone, -⟩ | ⟨fill, o, -, hrec, hsome, -⟩
    · rw [hnone]
      simpa using h
    · rw [hsome, hrec.ledger, List.map_append, ← List.append_assoc]
      exact h.record o fill pass.now
  · intro a j row hkeeps h
    rcases hrow : Reconciler.orderRow row pass.now a.ledger with ⟨r, l'⟩
    rcases Reconciler.orderRow_cases hrow with
      rfl | ⟨identifier, o, state, hid, hfind, hlocal, hstate, hlegal, rfl⟩
    · exact h
    · have htext : row.text ["order_id", "id"] = identifier := by
        unfold Row.requiredText at hid
        split at hid
        · cases hid
        · exact Except.ok.inj hid
      refine h.put (ExecutionLedger.get?_of_findOrder hfind) rfl rfl (.inr ?_)
      exact hkeeps state hstate o (by rw [htext]; exact hfind) hlocal hlegal

/-- **The report is ordered by execution** in every run that changes the state of
no order that has traded. -/
theorem ordered_run (c : Reconciler) (book : PortfolioBook) (es : List RecordsEvent)
    (h : Along (step c) (KeepsDates c) (start book) es) (asset : Option String) :
    (run (step c) (start book) es).Ordered asset := by
  have hdated : Dated (run (step c) (start book) es).accounts.ledger
      (run (step c) (start book) es).filledAt := by
    refine run_invariant_along (I := fun t => Dated t.accounts.ledger t.filledAt) ?_ _ es h
      (dated_empty [])
    intro t e hkeeps ht
    cases e with
    | call call now => exact dated_call ht hkeeps
    | reconcile pass => exact dated_pass ht hkeeps
  unfold Ordered
  refine (pairwise_fillsFromLedger _ asset).imp_of_mem fun {f g} hf hg hle s hs u hu => ?_
  have hat : ∀ f ∈ fillsFromLedger (run (step c) (start book) es).accounts.ledger asset,
      (run (step c) (start book) es).executedAt f.orderId = some f.observedAt := by
    intro f hf
    obtain ⟨k, o, hk, hfill⟩ := mem_fillsFromLedger.mp hf
    obtain ⟨hpos, hid, hat⟩ := paperFill_some hfill
    rw [hid, hat, ExecutionLedger.keyed _ _ _ hk]
    exact hdated k o hk hpos.ne'
  rw [hat f hf] at hs
  rw [hat g hg] at hu
  cases hs
  cases hu
  exact hle

end Timed

/-- **When fill times are stable**: re-asserting passes leave the records
unchanged exactly if none of them re-asserts an order at a time other than its
stamp; and in every run that changes the state of no order that has traded, the
report is ordered by execution in every state reached. -/
theorem fill_times_stable_iff (c : Reconciler) :
    (∀ (a : Accounts) (passes : List Pass), (∀ p ∈ passes, p.Reasserts c a.ledger) →
      ((∀ pre post, passes = pre ++ post → (run (Pass.step c) a pre).ledger = a.ledger) ↔
        ∀ p ∈ passes, p.Quiet a.ledger)) ∧
      ∀ (book : PortfolioBook) (es : List RecordsEvent) (asset : Option String),
        Along (Timed.step c) (Timed.KeepsDates c) (Timed.start book) es →
          ∀ pre post, es = pre ++ post →
            (run (Timed.step c) (Timed.start book) pre).Ordered asset := by
  refine ⟨fun a passes h => Pass.unchanged_iff passes h, ?_⟩
  rintro book es asset h pre post rfl
  exact Timed.ordered_run c book pre ((along_append _ _ _).mp h).1 asset

/-! ### A filled order re-asserted -/

namespace Redated

/-- The first order filled at the venue. -/
def filled : Payload := .list [Twice.row "v1" "filled"]

/-- Its trade. -/
def first : Payload := .list [Twice.trade "v1" "t1" 1]

/-- Its trade, and the later one of another order. -/
def both : Payload := .list [Twice.trade "v1" "t1" 1, Twice.trade "v2" "t2" 1]

theorem unfilled (key venueOrderId : String) : (Twice.order key venueOrderId).Unfilled :=
  ⟨rfl, rfl, rfl⟩

/-- The records once the first order filled, at time 1. -/
def accounts : Accounts := (Twice.reconciler.reconcileState filled first 1 Twice.accounts).2

/-- Two orders that trade at 1 and 2, and a pass at 3 that re-asserts the first. -/
def events : List RecordsEvent :=
  [.call (.registerOrder ⟨Twice.order "ts-d1" "v1", unfilled "ts-d1" "v1"⟩) 0,
    .call (.registerOrder ⟨Twice.order "ts-d2" "v2", unfilled "ts-d2" "v2"⟩) 0,
    .reconcile ⟨.list [], first, 1⟩, .reconcile ⟨.list [], both, 2⟩,
    .reconcile ⟨filled, both, 3⟩]

end Redated

/-- **Fill times are not stable**: a pass that re-asserts a filled order dates it
anew, and the report then lists it after a fill that executed later. -/
theorem not_fill_times_stable :
    ¬(∀ (c : Reconciler) (a : Accounts) (passes : List Pass),
        (∀ p ∈ passes, p.Reasserts c a.ledger) →
          ∀ pre post, passes = pre ++ post → (run (Pass.step c) a pre).ledger = a.ledger) ∧
      ¬∀ (c : Reconciler) (book : PortfolioBook) (es : List RecordsEvent) (asset : Option String),
        (run (Timed.step c) (Timed.start book) es).Ordered asset := by
  constructor
  · intro hall
    have hdone : (⟨Redated.filled, Redated.first, 2⟩ : Pass).Reasserts Twice.reconciler
        Redated.accounts.ledger := by
      refine @Reconciler.reconcileState_settles Twice.reconciler 1 Twice.accounts Redated.accounts
        Redated.filled Redated.first ⟨1, 1, []⟩ (Prod.ext ?_ rfl)
      decide +kernel
    have hsame := hall Twice.reconciler Redated.accounts [⟨Redated.filled, Redated.first, 2⟩]
      (by simpa using hdone) [⟨Redated.filled, Redated.first, 2⟩] [] rfl
    have hdates : (Redated.accounts.ledger.orders.get? "ts-d1").map (fun o => o.lastUpdatedAt)
        ≠ ((run (Pass.step Twice.reconciler) Redated.accounts
          [⟨Redated.filled, Redated.first, 2⟩]).ledger.orders.get? "ts-d1").map
            fun o => o.lastUpdatedAt := by decide +kernel
    rw [hsame] at hdates
    exact hdates rfl
  · intro hall
    have hordered := hall Twice.reconciler (PortfolioBook.fresh 1000 Oversold.thousand_pos)
      Redated.events none
    exact absurd hordered (by decide +kernel)

end TraderStack
