import TraderStack.Execution.SubmitRuns

/-!
# The quantities of a protective exit

The order of a reduce-only sale is planned by whichever component gets to it first,
and planned again when an unanswered submission is resumed at prices that have moved.
The order's own quantity caps each later plan, and the ledger that says so is saved
before the venue is called, so what is sent can only shrink.

- `Ceiling`: what a ledger owes to the quantities sent so far;
- `reducing_submitInvariant`: a submission keeps it, in memory and on file;
- `reductions_never_grow`: the quantities of a whole run, and the bounds of each call.
-/

namespace TraderStack

open Lib

/-! ## The caps -/

namespace IdempotentSubmitter

variable {intent : PaperOrderIntent} {s : IdempotentSubmitter} {c : SubmitCall}

/-- The cap of a protective exit is at most the quantity given with the call. -/
theorem reduceOnlyCap_le (hreduce : intent.reduceOnly = true) (hsell : intent.side = .sell)
    (resumed : Option ExecutionOrder) (m : ℚ) :
    ∃ cap, reduceOnlyCap intent (some m) resumed = some cap ∧ cap ≤ m := by
  cases resumed with
  | none => exact ⟨m, by simp [reduceOnlyCap, hreduce, hsell], le_rfl⟩
  | some o =>
    exact ⟨min m o.requestedQuantity, by simp [reduceOnlyCap, hreduce, hsell], min_le_left _ _⟩

/-- And at most the quantity of the order it resumes. -/
theorem reduceOnlyCap_le_resumed (hreduce : intent.reduceOnly = true) (hsell : intent.side = .sell)
    (maxQuantity : Option ℚ) (o : ExecutionOrder) :
    ∃ cap, reduceOnlyCap intent maxQuantity (some o) = some cap ∧ cap ≤ o.requestedQuantity := by
  cases maxQuantity with
  | none => exact ⟨o.requestedQuantity, by simp [reduceOnlyCap, hreduce, hsell], le_rfl⟩
  | some m =>
    exact ⟨min m o.requestedQuantity, by simp [reduceOnlyCap, hreduce, hsell], min_le_right _ _⟩

/-- A call never makes a reducing order ask for more. -/
theorem Resizes.le {o o' : ExecutionOrder} (h : s.Resizes c o o')
    (hreduce : c.intent.reduceOnly = true) (hsell : c.intent.side = .sell) :
    o'.requestedQuantity ≤ o.requestedQuantity := by
  rcases h with hsame | ⟨plan, hplan, hquantity⟩
  · exact hsame.le
  · obtain ⟨cap, hcap, hle⟩ := reduceOnlyCap_le_resumed hreduce hsell c.maxQuantity o
    rw [hquantity]
    exact ((ExecutionPlanner.planned_of_ok hplan).le_cap cap hcap).trans hle

/-- What a call may send of a protective exit: no more than it was given, and no
more than was approved at its price. -/
structure WithinCaps (c : SubmitCall) (req : HummingbotOrderRequest) : Prop where
  maxQuantity : ∀ m, c.maxQuantity = some m → req.amount ≤ m
  notional : req.amount * c.executionPriceUsd ≤ c.intent.notionalUsd

theorem withinCaps_of_requests (hreduce : c.intent.reduceOnly = true)
    (hsell : c.intent.side = .sell) {req : HummingbotOrderRequest} (h : s.Requests c req) :
    WithinCaps c req := by
  obtain ⟨plan, ⟨resumed, hplan⟩, hbuild⟩ := h
  have hplanned := ExecutionPlanner.planned_of_ok hplan
  obtain ⟨-, -, hamount, -⟩ := buildRequest_ok hbuild
  constructor
  · intro m hm
    obtain ⟨cap, hcap, hle⟩ := reduceOnlyCap_le hreduce hsell resumed m
    rw [hm] at hplanned
    rw [hamount]
    exact (hplanned.le_cap cap hcap).trans hle
  · rw [hamount]
    exact hplanned.notional_le

end IdempotentSubmitter

/-! ## What was sent, and what the ledger says -/

namespace ExecutionLedger

variable {l : ExecutionLedger} {o x : ExecutionOrder} {d : String}

/-- The decision's orders after storing one. -/
theorem mem_ordersForDecision_put :
    x ∈ (l.put o).ordersForDecision d ↔
      (x = o ∧ o.decisionId = d) ∨ (x.orderId ≠ o.orderId ∧ x ∈ l.ordersForDecision d) := by
  rw [mem_ordersForDecision, mem_ordersForDecision, get?_put]
  by_cases hkey : x.orderId = o.orderId
  · rw [if_pos hkey]
    constructor
    · rintro ⟨hx, hd⟩
      cases hx
      exact .inl ⟨rfl, hd⟩
    · rintro (⟨rfl, hd⟩ | ⟨hne, -⟩)
      · exact ⟨rfl, hd⟩
      · exact absurd hkey hne
  · rw [if_neg hkey]
    constructor
    · exact fun h => .inr ⟨hkey, h⟩
    · rintro (⟨rfl, -⟩ | ⟨-, h⟩)
      · exact absurd rfl hkey
      · exact h

/-- A decision without an order has none in the list. -/
theorem not_mem_ordersForDecision (h : l.hasOrderForDecision d = false) :
    x ∉ l.ordersForDecision d := by
  intro hx
  obtain ⟨hget, hd⟩ := mem_ordersForDecision.mp hx
  exact absurd (hasOrderForDecision_iff.mpr ⟨_, x, hget, hd⟩) (Bool.eq_false_iff.mp h)

end ExecutionLedger

/-- **The ceiling of a decision**: it has one order at most, which asks for no more
than was ever sent, and it has it once anything was. -/
structure Ceiling (d : String) (sent : List ℚ) (l : ExecutionLedger) : Prop where
  one : ∀ o ∈ l.ordersForDecision d, ∀ o' ∈ l.ordersForDecision d, o.orderId = o'.orderId
  le : ∀ o ∈ l.ordersForDecision d, ∀ q ∈ sent, o.requestedQuantity ≤ q
  known : sent ≠ [] → ∃ o, o ∈ l.ordersForDecision d

namespace Ceiling

variable {d : String} {sent : List ℚ} {l : ExecutionLedger} {o o' : ExecutionOrder}

/-- Before anything was sent. -/
theorem start (h : l.hasOrderForDecision d = false) : Ceiling d [] l where
  one := fun _ ho => (ExecutionLedger.not_mem_ordersForDecision h ho).elim
  le := fun _ ho => (ExecutionLedger.not_mem_ordersForDecision h ho).elim
  known := fun hne => absurd rfl hne

/-- A stored order changes, but for its decision, and asks for no more. -/
theorem amend (h : Ceiling d sent l) (hget : l.orders.get? o.orderId = some o)
    (hid : o'.orderId = o.orderId) (hdecision : o'.decisionId = o.decisionId)
    (hle : o'.requestedQuantity ≤ o.requestedQuantity) : Ceiling d sent (l.put o') := by
  have hold : ∀ x ∈ (l.put o').ordersForDecision d, ∃ y ∈ l.ordersForDecision d,
      x.orderId = y.orderId ∧ x.requestedQuantity ≤ y.requestedQuantity := by
    intro x hx
    rcases ExecutionLedger.mem_ordersForDecision_put.mp hx with ⟨rfl, hd⟩ | ⟨-, hx⟩
    · exact ⟨o, ExecutionLedger.mem_ordersForDecision.mpr ⟨hget, hdecision ▸ hd⟩, hid, hle⟩
    · exact ⟨x, hx, rfl, le_rfl⟩
  constructor
  · intro x hx x' hx'
    obtain ⟨y, hy, hxy, -⟩ := hold x hx
    obtain ⟨y', hy', hxy', -⟩ := hold x' hx'
    rw [hxy, hxy', h.one y hy y' hy']
  · intro x hx q hq
    obtain ⟨y, hy, -, hxy⟩ := hold x hx
    exact hxy.trans (h.le y hy q hq)
  · intro hne
    obtain ⟨y, hy⟩ := h.known hne
    by_cases hkey : y.orderId = o.orderId
    · -- the decision's order is the one that changed
      obtain ⟨hstored, hd⟩ := ExecutionLedger.mem_ordersForDecision.mp hy
      rw [hkey, hget] at hstored
      cases hstored
      exact ⟨o', ExecutionLedger.mem_ordersForDecision_put.mpr (.inl ⟨rfl, hdecision.trans hd⟩)⟩
    · rw [← hid] at hkey
      exact ⟨y, ExecutionLedger.mem_ordersForDecision_put.mpr (.inr ⟨hkey, hy⟩)⟩

/-- A new order is registered; the decision gets one only if it had none. -/
theorem register (h : Ceiling d sent l) (hnew : l.orders.get? o.orderId = none)
    (hnone : l.hasOrderForDecision o.decisionId = false) : Ceiling d sent (l.put o) := by
  by_cases hd : o.decisionId = d
  · subst hd
    have hempty : sent = [] := by
      by_contra hne
      obtain ⟨x, hx⟩ := h.known hne
      exact ExecutionLedger.not_mem_ordersForDecision hnone hx
    have honly : ∀ x ∈ (l.put o).ordersForDecision o.decisionId, x = o := by
      intro x hx
      rcases ExecutionLedger.mem_ordersForDecision_put.mp hx with ⟨rfl, -⟩ | ⟨-, hx⟩
      · rfl
      · exact (ExecutionLedger.not_mem_ordersForDecision hnone hx).elim
    subst hempty
    refine ⟨fun x hx x' hx' => ?_, fun _ _ _ hq => (List.not_mem_nil hq).elim, fun hne => ?_⟩
    · rw [honly x hx, honly x' hx']
    · exact absurd rfl hne
  · -- the order is another decision's
    have hsame : ∀ x, x ∈ (l.put o).ordersForDecision d ↔ x ∈ l.ordersForDecision d := by
      intro x
      rw [ExecutionLedger.mem_ordersForDecision_put]
      constructor
      · rintro (⟨-, h⟩ | ⟨-, h⟩)
        · exact absurd h hd
        · exact h
      · intro hx
        refine .inr ⟨fun hkey => ?_, hx⟩
        have hget := (ExecutionLedger.mem_ordersForDecision.mp hx).1
        rw [hkey, hnew] at hget
        cases hget
    refine ⟨fun x hx x' hx' => ?_, fun x hx => ?_, fun hne => ?_⟩
    · exact h.one x ((hsame x).mp hx) x' ((hsame x').mp hx')
    · exact h.le x ((hsame x).mp hx)
    · obtain ⟨x, hx⟩ := h.known hne
      exact ⟨x, (hsame x).mpr hx⟩

/-- The decision's order is sent, for what it asks. -/
theorem send (h : Ceiling d sent l) (ho : o ∈ l.ordersForDecision d) :
    Ceiling d (sent ++ [o.requestedQuantity]) l where
  one := h.one
  le := by
    intro x hx q hq
    rcases List.mem_append.mp hq with hq | hq
    · exact h.le x hx q hq
    · obtain ⟨hget, -⟩ := ExecutionLedger.mem_ordersForDecision.mp ho
      have hx' := (ExecutionLedger.mem_ordersForDecision.mp hx).1
      rw [h.one x hx o ho, hget] at hx'
      rw [List.mem_singleton.mp hq, Option.some.inj hx']
  known := fun _ => ⟨o, ho⟩

end Ceiling

/-- Since the venue had received the calls, it received some more, for quantities that
never grew and that the order in memory and the order on file do not exceed. -/
structure Reducing (d : String) (calls sent : List HummingbotOrderRequest) (w : World) : Prop where
  calls : w.venue.calls = calls ++ sent
  shrinking : (sent.map HummingbotOrderRequest.amount).Pairwise (· ≥ ·)
  memory : Ceiling d (sent.map HummingbotOrderRequest.amount) w.ledger
  file : Ceiling d (sent.map HummingbotOrderRequest.amount) (w.ledgerFile.getD .empty)

namespace Reducing

variable {d : String} {calls sent : List HummingbotOrderRequest} {w : World}

/-- Another ledger in memory. -/
theorem withLedger (h : Reducing d calls sent w) {l : ExecutionLedger}
    (hl : Ceiling d (sent.map HummingbotOrderRequest.amount) l) :
    Reducing d calls sent (w.withLedger l) :=
  ⟨h.calls, h.shrinking, hl, h.file⟩

theorem saveLedger (h : Reducing d calls sent w) : Reducing d calls sent w.saveLedger :=
  ⟨h.calls, h.shrinking, h.memory, h.memory⟩

theorem reloadLedger (h : Reducing d calls sent w) : Reducing d calls sent w.reloadLedger :=
  ⟨h.calls, h.shrinking, h.file, h.file⟩

/-- The decision's order is sent once it is saved. -/
theorem create (h : Reducing d calls sent w) (env : VenueEnv) {o : ExecutionOrder}
    {req : HummingbotOrderRequest} (ho : o ∈ w.ledger.ordersForDecision d)
    (hamount : req.amount = o.requestedQuantity) (hsaved : w.ledgerFile = some w.ledger) :
    Reducing d calls (sent ++ [req]) { w with venue := (w.venue.create env req).2 } := by
  have hmap : (sent ++ [req]).map HummingbotOrderRequest.amount
      = sent.map HummingbotOrderRequest.amount ++ [o.requestedQuantity] := by
    rw [List.map_append, List.map_singleton, hamount]
  have hmemory := h.memory.send ho
  rw [← hmap] at hmemory
  refine ⟨?_, ?_, hmemory, ?_⟩
  · show w.venue.calls ++ [req] = calls ++ (sent ++ [req])
    rw [h.calls, List.append_assoc]
  · rw [hmap, List.pairwise_append]
    refine ⟨h.shrinking, List.pairwise_singleton _ _, fun q hq q' hq' => ?_⟩
    rw [List.mem_singleton.mp hq']
    exact h.memory.le o ho q hq
  · rw [hsaved]
    exact hmemory

end Reducing

/-- **The submitter** never sends more of a reducing order than before. -/
theorem reducing_submitInvariant (s : IdempotentSubmitter) (env : VenueEnv) {c : SubmitCall}
    (hreduce : c.intent.reduceOnly = true) (hsell : c.intent.side = .sell)
    (calls : List HummingbotOrderRequest) :
    SubmitInvariant s env c (fun w => ∃ sent, Reducing c.intent.decisionId calls sent w)
      (fun _ _ w => ∃ sent, Reducing c.intent.decisionId calls sent w) where
  save := fun _ ⟨sent, h⟩ => ⟨sent, h.saveLedger⟩
  amend := fun _ _ _ ⟨sent, h⟩ hget ha _ hsize => ⟨sent, h.withLedger
    (h.memory.amend hget ha.orderId ha.decisionId (hsize.le hreduce hsell))⟩
  register := fun _ _ _ ⟨sent, h⟩ _ hnew hnone => ⟨sent, h.withLedger
    (h.memory.register hnew hnone)⟩
  send := by
    intro w o req ⟨sent, h⟩ hget _ _ hsends
    have ho := ExecutionLedger.mem_ordersForDecision.mpr ⟨hget, hsends.decisionId⟩
    have hcreate := h.create env ho hsends.amount hsends.saved
    exact ⟨⟨_, hcreate⟩, fun _ _ => ⟨_, hcreate⟩⟩
  receive := by
    intro w o id now ⟨sent, h⟩ hget _
    have hreceived : Ceiling _ (sent.map HummingbotOrderRequest.amount)
        (w.ledger.put (o.receipted id now)) := h.memory.amend hget rfl rfl le_rfl
    exact ⟨sent, h.withLedger hreceived⟩
  search := fun _ ⟨sent, h⟩ => ⟨sent, h.calls, h.shrinking, h.memory, h.file⟩
  adopt := by
    intro w o now rows row ⟨sent, h⟩ hget _ _ _ _
    have hadopted : Ceiling _ (sent.map HummingbotOrderRequest.amount)
        (w.ledger.put (o.adopted now)) := h.memory.amend hget rfl rfl le_rfl
    exact ⟨sent, h.calls, h.shrinking, hadopted, hadopted⟩

/-! ## Runs -/

/-- The parties that may act on an approved protective exit. -/
structure ReductionDesk where
  submitter : IdempotentSubmitter
  env : VenueEnv
  simulator : PaperFillSimulator
  intent : PaperOrderIntent
  reduceOnly : intent.reduceOnly = true
  sell : intent.side = .sell

/-- What happens to the exit: a submission, which may crash, or a paper fill. In
between the ledger may be saved, the process restarted, and the book may become
any other. -/
inductive ReductionEvent where
  | submit (executionPriceUsd referencePriceUsd : ℚ) (maxQuantity : Option ℚ) (now : Time)
      (crash : Option ℕ)
  | apply (midUsd : ℚ) (now : Time)
  | save
  | restart
  | rebook (book : PortfolioBook)

namespace ReductionDesk

variable {desk : ReductionDesk} {w : World}

/-- A submission of the exit. -/
def call (desk : ReductionDesk) (executionPriceUsd referencePriceUsd : ℚ) (maxQuantity : Option ℚ)
    (now : Time) : SubmitCall :=
  ⟨desk.intent, executionPriceUsd, referencePriceUsd, maxQuantity, now⟩

/-- One event. -/
def step (desk : ReductionDesk) (w : World) : ReductionEvent → World
  | .submit executionPriceUsd referencePriceUsd maxQuantity now crash =>
    (desk.submitter.submit desk.env (desk.call executionPriceUsd referencePriceUsd maxQuantity now)
      w).after World.reloadLedger crash
  | .apply midUsd now =>
    { w with accounts := (desk.simulator.apply desk.intent midUsd now w.accounts).2 }
  | .save => w.saveLedger
  | .restart => w.reloadLedger
  | .rebook book => { w with accounts := { w.accounts with book := book } }

/-- The quantities sent to the venue from one world to a later one. -/
def quantitiesSent (w w' : World) : List ℚ :=
  (w'.venue.calls.drop w.venue.calls.length).map HummingbotOrderRequest.amount

/-- A paper fill of the exit takes no more than is held and no more than its order
asks for. -/
structure FillWithin (desk : ReductionDesk) (a a' : Accounts) (fill : ExecutionFill) : Prop where
  held : fill.quantity ≤ a.book.heldQuantity (Text.upper desk.intent.asset)
  planned : ∃ o ∈ a'.ledger.ordersForDecision desk.intent.decisionId,
    o.orderId = fill.orderId ∧ fill.quantity ≤ o.requestedQuantity

/-- What one event sends and books is within its caps. -/
def StaysWithin (desk : ReductionDesk) (w : World) : ReductionEvent → Prop
  | .submit executionPriceUsd referencePriceUsd maxQuantity now crash =>
    Sent w.venue.calls (IdempotentSubmitter.WithinCaps
        (desk.call executionPriceUsd referencePriceUsd maxQuantity now))
      (desk.step w (.submit executionPriceUsd referencePriceUsd maxQuantity now crash))
  | .apply midUsd now =>
    ∀ out a', desk.simulator.apply desk.intent midUsd now w.accounts = (.ok out, a') →
      out.status = .filled → ∃ fill, out.fill = some fill ∧ desk.FillWithin w.accounts a' fill
  | .save | .restart | .rebook _ => True

/-- **A submission** is within its caps, wherever it crashes. -/
theorem sent_submit (c : SubmitCall) (hreduce : c.intent.reduceOnly = true)
    (hsell : c.intent.side = .sell) (crash : Option ℕ) :
    Sent w.venue.calls (IdempotentSubmitter.WithinCaps c)
      ((desk.submitter.submit desk.env c w).after World.reloadLedger crash) := by
  have hinvariant : SubmitInvariant desk.submitter desk.env c
      (Sent w.venue.calls (IdempotentSubmitter.WithinCaps c))
      (fun _ _ => Sent w.venue.calls (IdempotentSubmitter.WithinCaps c)) :=
    sent_submitInvariant
      (fun _ hreq => IdempotentSubmitter.withinCaps_of_requests hreduce hsell hreq) desk.env
  have hrestart : ∀ v, Sent w.venue.calls (IdempotentSubmitter.WithinCaps c) v →
      Sent w.venue.calls (IdempotentSubmitter.WithinCaps c) v.reloadLedger := fun _ h => h
  exact (IdempotentSubmitter.triple_submit_of_invariant hinvariant).after (fun _ _ h => h)
    (fun _ _ h => h) hrestart hrestart (sent_refl w) crash

/-- A submission keeps what was sent shrinking. -/
theorem reducing_submit {calls : List HummingbotOrderRequest} {c : SubmitCall}
    (hreduce : c.intent.reduceOnly = true) (hsell : c.intent.side = .sell)
    (h : ∃ sent, Reducing c.intent.decisionId calls sent w) (crash : Option ℕ) :
    ∃ sent, Reducing c.intent.decisionId calls sent
      ((desk.submitter.submit desk.env c w).after World.reloadLedger crash) := by
  have hrestart : ∀ v, (∃ sent, Reducing c.intent.decisionId calls sent v) →
      ∃ sent, Reducing c.intent.decisionId calls sent v.reloadLedger :=
    fun v ⟨sent, hv⟩ => ⟨sent, hv.reloadLedger⟩
  have hinvariant := reducing_submitInvariant desk.submitter desk.env hreduce hsell calls
  exact (IdempotentSubmitter.triple_submit_of_invariant hinvariant).after (fun _ _ h => h)
    (fun _ _ h => h) hrestart hrestart h crash

/-- **A paper fill** is at most what is held and what its order asks for. -/
theorem fillWithin_of_apply {midUsd : ℚ} {now : Time} {a a' : Accounts} {out : PaperFillOutcome}
    (h : desk.simulator.apply desk.intent midUsd now a = (.ok out, a'))
    (hfilled : out.status = .filled) :
    ∃ fill, out.fill = some fill ∧ desk.FillWithin a a' fill := by
  cases PaperFillSimulator.applied_of_apply h with
  | unrecorded hprepare hunfilled => exact absurd hfilled (hunfilled out rfl)
  | recorded hprepare hprepared houtcome =>
    rename_i fill plan l' o
    obtain ⟨hout, hcovers⟩ := houtcome.resolve_right fun ⟨_, he, _⟩ => by cases he
    cases hout
    have hside := hprepared.side.trans desk.sell
    have hheld := hcovers hside
    rw [hprepared.asset, Text.upper_upper] at hheld
    have hdecision := PaperFillSimulator.decisionId_of_prepared hprepared
    refine ⟨fill, rfl, hheld, o.withFill fill now, ?_, hprepared.orderId.symm, ?_⟩
    · exact ExecutionLedger.mem_ordersForDecision_put.mpr (.inl ⟨rfl, hdecision⟩)
    · rw [hprepared.quantity]
      exact PaperFillSimulator.existingQuantity_le _ _ _

/-- A paper fill keeps what was sent shrinking: it registers the order of a decision
without one, and fills it. -/
theorem reducing_apply {calls sent : List HummingbotOrderRequest} (midUsd : ℚ) (now : Time)
    (h : Reducing desk.intent.decisionId calls sent w) :
    Reducing desk.intent.decisionId calls sent
      { w with accounts := (desk.simulator.apply desk.intent midUsd now w.accounts).2 } := by
  suffices hmemory : Ceiling desk.intent.decisionId (sent.map HummingbotOrderRequest.amount)
      (desk.simulator.apply desk.intent midUsd now w.accounts).2.ledger from
    ⟨h.calls, h.shrinking, hmemory, h.file⟩
  rcases happly : desk.simulator.apply desk.intent midUsd now w.accounts with ⟨r, a'⟩
  have hprepared : ∀ {p l'}, desk.simulator.prepare desk.intent midUsd now w.accounts = (p, l') →
      Ceiling desk.intent.decisionId (sent.map HummingbotOrderRequest.amount) l' := by
    intro p l' hprepare
    rcases PaperFillSimulator.prepare_registers hprepare with
      rfl | ⟨plan, hdecision, hnone, hnew, rfl⟩
    · exact h.memory
    · exact h.memory.register hnew hnone
  cases PaperFillSimulator.applied_of_apply happly with
  | unrecorded hprepare hunfilled => exact hprepared hprepare
  | recorded hprepare hfill houtcome =>
    rename_i fill plan l' o
    have hrecorded : Ceiling desk.intent.decisionId (sent.map HummingbotOrderRequest.amount)
        (l'.put (o.withFill fill now)) :=
      (hprepared hprepare).amend (PaperFillSimulator.prepared_stored hfill) rfl rfl le_rfl
    exact ⟨hrecorded.one, hrecorded.le, hrecorded.known⟩

/-- **One event** keeps what was sent shrinking. -/
theorem reducing_step {calls : List HummingbotOrderRequest} (e : ReductionEvent)
    (h : ∃ sent, Reducing desk.intent.decisionId calls sent w) :
    ∃ sent, Reducing desk.intent.decisionId calls sent (desk.step w e) := by
  cases e with
  | submit executionPriceUsd referencePriceUsd maxQuantity now crash =>
    exact reducing_submit (c := desk.call executionPriceUsd referencePriceUsd maxQuantity now)
      desk.reduceOnly desk.sell h crash
  | apply midUsd now =>
    obtain ⟨sent, hsent⟩ := h
    exact ⟨sent, reducing_apply midUsd now hsent⟩
  | save =>
    obtain ⟨sent, hsent⟩ := h
    exact ⟨sent, hsent.saveLedger⟩
  | restart =>
    obtain ⟨sent, hsent⟩ := h
    exact ⟨sent, hsent.reloadLedger⟩
  | rebook book =>
    obtain ⟨sent, hsent⟩ := h
    exact ⟨sent, hsent.calls, hsent.shrinking, hsent.memory, hsent.file⟩

theorem staysWithin (desk : ReductionDesk) (w : World) (e : ReductionEvent) :
    desk.StaysWithin w e := by
  cases e with
  | submit executionPriceUsd referencePriceUsd maxQuantity now crash =>
    exact sent_submit _ desk.reduceOnly desk.sell crash
  | apply midUsd now => exact fun out a' h hfilled => fillWithin_of_apply h hfilled
  | save => trivial
  | restart => trivial
  | rebook book => trivial

/-- **Reducing orders never grow.** In every run of submissions and paper fills of a
reduce-only sale, at any prices, with crashes and restarts, from any world in which
its decision has no order yet: the quantities sent to the venue never increase, each
is at most the quantity given with its call and worth at most the approved notional
at its price, and each paper fill is at most what is held and what its order asks
for. -/
theorem reductions_never_grow (desk : ReductionDesk) (w : World) (es : List ReductionEvent)
    (hmemory : w.ledger.hasOrderForDecision desk.intent.decisionId = false)
    (hfile : (w.ledgerFile.getD .empty).hasOrderForDecision desk.intent.decisionId = false) :
    (quantitiesSent w (run desk.step w es)).Pairwise (· ≥ ·) ∧
      Along desk.step desk.StaysWithin w es := by
  constructor
  · have hstart : ∃ sent, Reducing desk.intent.decisionId w.venue.calls sent w :=
      ⟨[], (List.append_nil _).symm, List.Pairwise.nil, Ceiling.start hmemory, Ceiling.start hfile⟩
    have hstep : ∀ v e, (∃ sent, Reducing desk.intent.decisionId w.venue.calls sent v) →
        ∃ sent, Reducing desk.intent.decisionId w.venue.calls sent (desk.step v e) :=
      fun v e hv => reducing_step e hv
    obtain ⟨sent, hsent⟩ := run_invariant hstep w es hstart
    unfold quantitiesSent
    rw [hsent.calls, List.drop_left]
    exact hsent.shrinking
  · exact along_of_forall desk.staysWithin w es

end ReductionDesk

/-! ### An exit resumed at a higher price -/

namespace Shrunk

/-- A protective exit of decision `d1` for 100 USD of BTC. -/
def desk : ReductionDesk where
  submitter := Flip.submitter
  env := Flip.env
  simulator := Oversold.sim
  intent := { (Flip.call .sell).intent with reduceOnly := true }
  reduceOnly := rfl
  sell := rfl

/-- A book that still holds half a BTC. -/
def book : PortfolioBook :=
  (Flip.book.applyFill "BTC" .buy (1 / 2) 100 0 0 none).2

/-- The exit is sent at 100 and goes unanswered; after a restart it is resumed at
125, and then filled on paper. -/
def events : List ReductionEvent :=
  [.submit 100 100 (some 3) 0 none, .restart, .submit 125 125 none 60 none, .rebook book,
    .apply 100 120]

end Shrunk

namespace ReductionDesk

theorem reductions_never_grow_resumed :
    quantitiesSent (.fresh Flip.book) (run Shrunk.desk.step (.fresh Flip.book) Shrunk.events)
        = [1, 4 / 5] ∧
      Along Shrunk.desk.step Shrunk.desk.StaysWithin (.fresh Flip.book) Shrunk.events :=
  ⟨by decide +kernel, (reductions_never_grow Shrunk.desk (.fresh Flip.book) Shrunk.events rfl
    rfl).2⟩

end ReductionDesk

end TraderStack
