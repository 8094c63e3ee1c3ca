import TraderStack.Execution.Passes
import TraderStack.Execution.SubmitRuns

/-!
# What becomes of an adopted order

When the search shows an uncertain order at the venue, `_gate_retry` moves the
ledger order to SUBMITTED and forgets the row. The venue's rows carry only the
venue's own order id, and no order of the ledger ever takes the id of an adopted
row (`Traced`): a receipt brings the id of the call it answers, and every
adopted row belongs to an earlier call. So the trades of an adopted order name
nobody, in every later state of every run.
-/

namespace TraderStack

open Lib

/-- What happens to the records around adoption: submit calls that may crash,
passes, saves and restarts. -/
inductive AdoptionEvent where
  | submit (call : SubmitCall) (crash : Option ℕ)
  | reconcile (ordersPayload tradesPayload : Payload) (now : Time)
  | persist
  | restart

/-- The world after an event. -/
def World.adoptionStep (s : IdempotentSubmitter) (env : VenueEnv) (c : Reconciler) (w : World) :
    AdoptionEvent → World
  | .submit call crash => (s.submit env call w).after World.reloadLedger crash
  | .reconcile orders trades now =>
    { w with accounts := (c.reconcileState orders trades now w.accounts).2 }
  | .persist => w.saveLedger
  | .restart => w.reloadLedger

/-- A search lists the venue's own orders and nothing else. -/
def OwnRowsOnly (env : VenueEnv) : Prop :=
  ∀ n status arrange complete, env.query n = .answers status arrange complete →
    ∀ own, ∀ row ∈ arrange own, row ∈ own

/-- The order id a row names. -/
abbrev Row.orderId (row : Row) : String := row.text ["order_id"]

/-- The rows that grounded an adoption are the venue's, of calls before the n-th. -/
def RowsBefore (env : VenueEnv) (n : ℕ) (adoptions : List (Row × String)) : Prop :=
  ∀ e ∈ adoptions, ∃ m status req, m < n ∧ e.1 = VenueOrder.row ⟨env.mint m, req⟩ status

/-- **What ties a ledger to the venue and to what it adopted.** Orders are keyed
by client order ids; a venue id is that of an order accepted under the order's
key; an order that waits has none; no order has the id of an adopted row; and an
adopted order waits no more and has no venue id. -/
structure Traced (p : ExecutionPlanner) (v : Venue) (adoptions : List (Row × String))
    (l : ExecutionLedger) : Prop where
  keyed : ∀ k o, l.orders.get? k = some o →
    o.clientOrderId = some k ∧ k = p.clientOrderIdFor o.decisionId
  named : ∀ k o x, l.orders.get? k = some o → o.venueOrderId = some x →
    ∃ a ∈ v.accepted, a.id = x ∧ a.request.clientOrderId = some k
  waiting : ∀ k o, l.orders.get? k = some o → o.waiting → o.venueOrderId = none
  unnamed : ∀ e ∈ adoptions, e.1.orderId ≠ "" →
    ∀ k o, l.orders.get? k = some o → o.venueOrderId ≠ some e.1.orderId
  settled : ∀ e ∈ adoptions, ∃ o, l.orders.get? e.2 = some o ∧ o.venueOrderId = none ∧ ¬o.waiting

/-- The world's two ledgers are traced, and its venue minted what it accepted. -/
structure AdoptionSafe (p : ExecutionPlanner) (env : VenueEnv) (w : World) : Prop where
  memory : Traced p w.venue w.adoptions w.ledger
  file : Traced p w.venue w.adoptions (w.ledgerFile.getD .empty)
  rows : RowsBefore env w.venue.calls.length w.adoptions
  minted : ∀ a ∈ w.venue.accepted, ∃ n, a.id = env.mint n ∧ w.venue.calls[n]? = some a.request

variable {p : ExecutionPlanner} {env : VenueEnv} {adoptions : List (Row × String)} {v : Venue}
  {l : ExecutionLedger} {o o' : ExecutionOrder}

theorem traced_empty (p : ExecutionPlanner) (v : Venue) : Traced p v [] .empty where
  keyed := fun _ _ h => by simp [ExecutionLedger.empty] at h
  named := fun _ _ _ h => by simp [ExecutionLedger.empty] at h
  waiting := fun _ _ h => by simp [ExecutionLedger.empty] at h
  unnamed := nofun
  settled := nofun

@[simp] theorem orderId_row (a : VenueOrder) (status : String) :
    (a.row status).orderId = a.id := by
  by_cases h : a.id = ""
  · simp [Row.orderId, Row.text, h]
  · simp [Row.orderId, Row.text, h]

/-- A change of an order that leaves its identifiers alone and does not send it
back to waiting. -/
theorem Traced.update (h : Traced p v adoptions l) (o' : ExecutionOrder)
    (hget : l.orders.get? o.orderId = some o)
    (hid : o'.orderId = o.orderId) (hdecision : o'.decisionId = o.decisionId)
    (hclient : o'.clientOrderId = o.clientOrderId) (hvenue : o'.venueOrderId = o.venueOrderId)
    (hwait : o'.waiting → o.waiting) : Traced p v adoptions (l.put o') where
  keyed := by
    intro k x hx
    rcases ExecutionLedger.get?_put_cases hx with ⟨rfl, rfl⟩ | ⟨-, hx⟩
    · rw [hclient, hdecision, hid]
      exact h.keyed _ _ hget
    · exact h.keyed k x hx
  named := by
    intro k x y hx hy
    rcases ExecutionLedger.get?_put_cases hx with ⟨rfl, rfl⟩ | ⟨-, hx⟩
    · rw [hvenue] at hy
      rw [hid]
      exact h.named _ _ y hget hy
    · exact h.named k x y hx hy
  waiting := by
    intro k x hx hw
    rcases ExecutionLedger.get?_put_cases hx with ⟨rfl, rfl⟩ | ⟨-, hx⟩
    · rw [hvenue]
      exact h.waiting _ _ hget (hwait hw)
    · exact h.waiting k x hx hw
  unnamed := by
    intro e he hne k x hx
    rcases ExecutionLedger.get?_put_cases hx with ⟨rfl, rfl⟩ | ⟨-, hx⟩
    · rw [hvenue]
      exact h.unnamed e he hne _ _ hget
    · exact h.unnamed e he hne k x hx
  settled := by
    intro e he
    obtain ⟨x, hx, hnone, hno⟩ := h.settled e he
    by_cases hk : e.2 = o.orderId
    · rw [hk, hget] at hx
      cases hx
      refine ⟨o', ?_, by rw [hvenue, hnone], fun hw => hno (hwait hw)⟩
      rw [ExecutionLedger.get?_put, if_pos (hk.trans hid.symm)]
    · refine ⟨x, ?_, hnone, hno⟩
      rw [ExecutionLedger.get?_put, if_neg (fun hsame => hk (hsame.trans hid))]
      exact hx

/-- An amendment is such a change. -/
theorem Traced.amend (h : Traced p v adoptions l) (hget : l.orders.get? o.orderId = some o)
    (ha : Amends o o') (hvenue : o'.venueOrderId = o.venueOrderId) :
    Traced p v adoptions (l.put o') := by
  refine h.update _ hget ha.orderId ha.decisionId ha.clientOrderId hvenue fun hw => ?_
  rcases ha.state with heq | ⟨-, hs | hs | ⟨-, hwas⟩⟩
  · unfold ExecutionOrder.waiting at hw ⊢
    rwa [heq] at hw
  · unfold ExecutionOrder.waiting at hw
    rw [hs] at hw
    simp at hw
  · unfold ExecutionOrder.waiting at hw
    rw [hs] at hw
    simp at hw
  · exact hwas

/-- A new order is planned and has no venue id; no adopted order is new. -/
theorem Traced.register (h : Traced p v adoptions l) {plan : ExecutionPlan} {now : Time}
    (hplan : plan.clientOrderId = p.clientOrderIdFor plan.decisionId)
    (hnone : l.orders.get? plan.clientOrderId = none) :
    Traced p v adoptions (l.put (PaperFillSimulator.plannedOrder plan now)) where
  keyed := by
    intro k x hx
    rcases ExecutionLedger.get?_put_cases hx with ⟨rfl, rfl⟩ | ⟨-, hx⟩
    · exact ⟨rfl, hplan⟩
    · exact h.keyed k x hx
  named := by
    intro k x y hx hy
    rcases ExecutionLedger.get?_put_cases hx with ⟨rfl, rfl⟩ | ⟨-, hx⟩
    · cases hy
    · exact h.named k x y hx hy
  waiting := by
    intro k x hx hw
    rcases ExecutionLedger.get?_put_cases hx with ⟨rfl, rfl⟩ | ⟨-, hx⟩
    · rfl
    · exact h.waiting k x hx hw
  unnamed := by
    intro e he hne k x hx
    rcases ExecutionLedger.get?_put_cases hx with ⟨rfl, rfl⟩ | ⟨-, hx⟩
    · exact nofun
    · exact h.unnamed e he hne k x hx
  settled := by
    intro e he
    obtain ⟨x, hx, hsettled⟩ := h.settled e he
    refine ⟨x, ?_, hsettled⟩
    have hne : e.2 ≠ plan.clientOrderId := by
      intro hk
      rw [hk, hnone] at hx
      cases hx
    rw [ExecutionLedger.get?_put]
    exact (if_neg hne).trans hx

/-- A venue that accepted more traces no less. -/
theorem Traced.mono {v' : Venue} (h : Traced p v adoptions l)
    (hle : ∀ a ∈ v.accepted, a ∈ v'.accepted) : Traced p v' adoptions l where
  keyed := h.keyed
  named := by
    intro k o x hget hx
    obtain ⟨a, ha, hid⟩ := h.named k o x hget hx
    exact ⟨a, hle a ha, hid⟩
  waiting := h.waiting
  unnamed := h.unnamed
  settled := h.settled

/-- The order ids under which the venue shows what was adopted: the id of the row
that grounded the adoption, and the id of what was accepted under the order's
client order id. -/
def ShownAs (v : Venue) (e : Row × String) (x : String) : Prop :=
  x = e.1.orderId ∨ ∃ a ∈ v.accepted, a.request.clientOrderId = some e.2 ∧ x = a.id

/-- **An adopted venue order names no ledger order.** -/
theorem Traced.findOrder (h : Traced p v adoptions l) (hid : Identified p env) {n : ℕ}
    (hrows : RowsBefore env n adoptions)
    (hminted : ∀ a ∈ v.accepted, ∃ n, a.id = env.mint n ∧ v.calls[n]? = some a.request)
    {e : Row × String} (he : e ∈ adoptions) {x : String} (hx : ShownAs v e x) (hne : x ≠ "") :
    l.findOrder x = none := by
  -- such an id is minted, so it is no client order id
  have hmint : ∃ m, x = env.mint m := by
    rcases hx with rfl | ⟨a, ha, -, rfl⟩
    · obtain ⟨m, status, req, -, hrow⟩ := hrows e he
      exact ⟨m, by rw [hrow, orderId_row]⟩
    · obtain ⟨m, hm, -⟩ := hminted a ha
      exact ⟨m, hm⟩
  obtain ⟨m, hm⟩ := hmint
  rw [ExecutionLedger.findOrder_eq_none_iff]
  intro k o hget
  obtain ⟨hclient, hk⟩ := h.keyed k o hget
  have hne' : k ≠ x := by
    rw [hk, hm]
    exact (hid.mint_fresh m _).symm
  -- and no order has it as its venue id
  have hvenue : o.venueOrderId ≠ some x := by
    rcases hx with rfl | ⟨a, ha, hreq, rfl⟩
    · exact h.unnamed e he hne k o hget
    · intro hsame
      obtain ⟨a', ha', hida, hreq'⟩ := h.named k o _ hget hsame
      obtain ⟨i, hi, hcall⟩ := hminted a ha
      obtain ⟨i', hi', hcall'⟩ := hminted a' ha'
      have hii : i' = i := hid.mint_injective (by rw [← hi, ← hi', hida])
      rw [hii, hcall] at hcall'
      rw [← Option.some.inj hcall', hreq] at hreq'
      obtain ⟨y, hy, hnone, -⟩ := h.settled e he
      rw [Option.some.inj hreq', hget] at hy
      cases hy
      rw [hnone] at hsame
      cases hsame
  refine ⟨hne', ?_⟩
  rw [ExecutionOrder.answersTo, Bool.or_eq_false_iff, decide_eq_false_iff_not,
    decide_eq_false_iff_not, hclient]
  exact ⟨hvenue, fun hsame => hne' (Option.some.inj hsame)⟩

/-! ## Submission -/

/-- Between a receipt and the order taking its id over: the id is that of an
order accepted under the order's client order id, minted after every adopted
row's. -/
def FreshReceipt (p : ExecutionPlanner) (env : VenueEnv) (o : ExecutionOrder) (id : String)
    (w : World) : Prop :=
  AdoptionSafe p env w ∧
    (∃ a ∈ w.venue.accepted, a.id = id ∧
      a.request.clientOrderId = some (p.clientOrderIdFor o.decisionId)) ∧
    ∃ n, id = env.mint n ∧ RowsBefore env n w.adoptions

theorem minted_create {v : Venue} {req : HummingbotOrderRequest}
    (h : ∀ a ∈ v.accepted, ∃ n, a.id = env.mint n ∧ v.calls[n]? = some a.request) :
    ∀ a ∈ (v.create env req).2.accepted,
      ∃ n, a.id = env.mint n ∧ (v.create env req).2.calls[n]? = some a.request := by
  intro a ha
  rw [accepted_create, List.mem_append] at ha
  rw [calls_create]
  rcases ha with ha | ha
  · obtain ⟨n, hid, hcall⟩ := h a ha
    refine ⟨n, hid, ?_⟩
    rw [List.getElem?_append_left (List.getElem?_eq_some_iff.mp hcall).1]
    exact hcall
  · split at ha
    · cases List.mem_singleton.mp ha
      exact ⟨v.calls.length, rfl, List.getElem?_concat_length⟩
    · cases ha

theorem RowsBefore.mono {n n' : ℕ} (h : RowsBefore env n adoptions) (hle : n ≤ n') :
    RowsBefore env n' adoptions := by
  intro e he
  obtain ⟨m, status, req, hm, hrow⟩ := h e he
  exact ⟨m, status, req, Nat.lt_of_lt_of_le hm hle, hrow⟩

/-- An own row that shows an order under a client order id is known to nobody. -/
theorem unknown_of_shows {a : VenueOrder} {status k pair side : String} {q : ℚ}
    (hk : a.id ≠ k) (h : (a.row status).shows l k pair side q = .ok true) (hne : a.id ≠ "") :
    l.findOrder a.id = none := by
  have habsent : ∀ key ∈ ["client_order_id", "clientOrderId", "client_id", "custom_id", "id"],
      (a.row status).get? key = none := by
    intro key hkey
    simp only [List.mem_cons, List.not_mem_nil, or_false] at hkey
    rcases hkey with rfl | rfl | rfl | rfl | rfl <;> rfl
  have hechoes : (a.row status).echoes k = false := by
    simp [Row.echoes, clientOrderIdKeys, habsent, hk]
  have hid : (a.row status).text ["order_id", "id"] = a.id := by simp [Row.text, hne]
  unfold Row.shows at h
  rw [hechoes, hid] at h
  simp only [Bool.false_eq_true, if_false] at h
  split at h
  · cases h
  · rename_i hno
    rw [not_and, Option.not_isSome_iff_eq_none] at hno
    exact hno hne

/-- An order takes over the id of a receipt. -/
theorem Traced.receive (h : Traced p v adoptions l) (hget : l.orders.get? o.orderId = some o)
    (hwait : o.waiting) {id : String} {now : Time}
    (hnamed : ∃ a ∈ v.accepted, a.id = id ∧ a.request.clientOrderId = some o.orderId)
    (hfresh : ∀ e ∈ adoptions, e.1.orderId ≠ id) :
    Traced p v adoptions (l.put (o.receipted id now)) where
  keyed := by
    intro k x hx
    rcases ExecutionLedger.get?_put_cases hx with ⟨rfl, rfl⟩ | ⟨-, hx⟩
    · exact ⟨(h.keyed _ _ hget).1, (h.keyed _ _ hget).2⟩
    · exact h.keyed k x hx
  named := by
    intro k x y hx hy
    rcases ExecutionLedger.get?_put_cases hx with ⟨rfl, rfl⟩ | ⟨-, hx⟩
    · cases hy
      exact hnamed
    · exact h.named k x y hx hy
  waiting := by
    intro k x hx hw
    rcases ExecutionLedger.get?_put_cases hx with ⟨rfl, rfl⟩ | ⟨-, hx⟩
    · unfold ExecutionOrder.waiting ExecutionOrder.receipted at hw
      simp at hw
    · exact h.waiting k x hx hw
  unnamed := by
    intro e he hne k x hx
    rcases ExecutionLedger.get?_put_cases hx with ⟨rfl, rfl⟩ | ⟨-, hx⟩
    · exact fun hsame => hfresh e he (Option.some.inj hsame).symm
    · exact h.unnamed e he hne k x hx
  settled := by
    intro e he
    obtain ⟨x, hx, hnone, hno⟩ := h.settled e he
    refine ⟨x, ?_, hnone, hno⟩
    have hne : e.2 ≠ o.orderId := by
      -- an adopted order waits no more
      intro hk
      rw [hk, hget] at hx
      cases hx
      exact hno hwait
    rw [ExecutionLedger.get?_put]
    exact (if_neg hne).trans hx

/-- An order is adopted on a row nobody knew. -/
theorem Traced.adopt (h : Traced p v adoptions l) (hget : l.orders.get? o.orderId = some o)
    (huncertain : o.state = .submissionUncertain) (row : Row) (now : Time)
    (hunknown : row.orderId ≠ "" → l.findOrder row.orderId = none) :
    Traced p v (adoptions ++ [(row, o.orderId)]) (l.put (o.adopted now)) := by
  have hupdated := h.amend hget (amends_adopted huncertain now) rfl
  refine ⟨hupdated.keyed, hupdated.named, hupdated.waiting, ?_, ?_⟩
  · intro e he hne k x hx
    rcases List.mem_append.mp he with he | he
    · exact hupdated.unnamed e he hne k x hx
    · cases List.mem_singleton.mp he
      have hno := ExecutionLedger.findOrder_eq_none_iff.mp (hunknown hne)
      have hold : ∀ k x, l.orders.get? k = some x → x.venueOrderId ≠ some row.orderId := by
        intro k x hx hsame
        have hanswers := (hno k x hx).2
        rw [ExecutionOrder.answersTo, hsame] at hanswers
        simp at hanswers
      rcases ExecutionLedger.get?_put_cases hx with ⟨rfl, rfl⟩ | ⟨-, hx⟩
      · exact hold _ o hget
      · exact hold k x hx
  · intro e he
    rcases List.mem_append.mp he with he | he
    · exact hupdated.settled e he
    · cases List.mem_singleton.mp he
      have hnone := h.waiting _ _ hget (.inr huncertain)
      refine ⟨o.adopted now, ?_, hnone, ?_⟩
      · exact (ExecutionLedger.get?_put _ _).trans (if_pos rfl)
      · unfold ExecutionOrder.waiting ExecutionOrder.adopted
        simp

/-- **The submitter** keeps the world safe for adopted rows. -/
theorem adoptionSafe_submitInvariant {s : IdempotentSubmitter} (hid : Identified s.planner env)
    (hown : OwnRowsOnly env) (c : SubmitCall) :
    SubmitInvariant s env c (AdoptionSafe s.planner env) (FreshReceipt s.planner env) where
  save := fun _ h => ⟨h.memory, h.memory, h.rows, h.minted⟩
  amend := fun _ _ _ h hget ha hvenue _ =>
    ⟨h.memory.amend hget ha hvenue, h.file, h.rows, h.minted⟩
  register := fun _ _ _ h hplan hnone _ =>
    ⟨h.memory.register hplan hnone, h.file, h.rows, h.minted⟩
  send := by
    intro w o req h _ hclient _ _
    have hlen : (w.venue.create env req).2.calls.length = w.venue.calls.length + 1 := by
      rw [calls_create, List.length_append, List.length_singleton]
    have hmore : ∀ a ∈ w.venue.accepted, a ∈ (w.venue.create env req).2.accepted := by
      intro a ha
      rw [accepted_create]
      exact List.mem_append_left _ ha
    have hsafe : AdoptionSafe s.planner env { w with venue := (w.venue.create env req).2 } :=
      ⟨h.memory.mono hmore, h.file.mono hmore, h.rows.mono (by rw [hlen]; omega),
        minted_create h.minted⟩
    refine ⟨hsafe, fun id hresponse => ⟨hsafe, ⟨⟨id, req⟩, ?_, rfl, hclient⟩,
      w.venue.calls.length, ?_, h.rows⟩⟩
    · exact IdempotentSubmitter.response_receipt hresponse
    · -- a receipt carries the id minted for this call
      have hsome : ∀ b : CreateBehaviour,
          b.response (env.mint w.venue.calls.length) = .receipt id →
            id = env.mint w.venue.calls.length := by
        intro b hb
        cases b <;> cases hb
        rfl
      exact hsome _ hresponse
  receive := by
    rintro w o id now ⟨h, ⟨a, ha, hida, hreq⟩, n, hmint, hrows⟩ hget hwait
    obtain ⟨-, hk⟩ := h.memory.keyed _ _ hget
    refine ⟨h.memory.receive hget hwait ⟨a, ha, hida, by rw [hreq, hk]⟩ fun e he hsame => ?_,
      h.file, h.rows, h.minted⟩
    -- an adopted row is older than the receipt
    obtain ⟨m, status, req, hm, hrow⟩ := hrows e he
    rw [hrow, orderId_row, hmint] at hsame
    have hmn : m = n := hid.mint_injective hsame
    omega
  search := fun _ h => ⟨h.memory.mono fun _ ha => ha, h.file.mono fun _ ha => ha, h.rows, h.minted⟩
  adopt := by
    intro w o now rows row h hget huncertain hlist hmem hshows
    obtain ⟨hclient, hk⟩ := h.memory.keyed _ _ hget
    have hkey : o.idempotencyKey = o.orderId := by
      have hne : o.orderId ≠ "" := by
        rw [hk]
        intro hempty
        have hchars := congrArg String.toList hempty
        simp [ExecutionPlanner.clientOrderIdFor, String.toList_append] at hchars
      unfold ExecutionOrder.idempotencyKey
      rw [hclient]
      simp only
      rw [if_neg hne]
    -- the row is one of the venue's own
    obtain ⟨n, status, arrange, complete, hquery, rfl⟩ := hlist
    obtain ⟨a, ha, rfl⟩ := List.mem_map.mp (hown n status arrange complete hquery _ row hmem)
    obtain ⟨m, hminted, hcall⟩ := h.minted a ha
    have hfresh : a.id ≠ o.idempotencyKey := by
      rw [hkey, hminted, hk]
      exact hid.mint_fresh m _
    have hmemory := h.memory.adopt hget huncertain (a.row (status a)) now
      (by rw [orderId_row]; exact unknown_of_shows hfresh hshows)
    refine ⟨hmemory, hmemory, ?_, h.minted⟩
    intro e he
    rcases List.mem_append.mp he with he | he
    · exact h.rows e he
    · cases List.mem_singleton.mp he
      exact ⟨m, status a, a.request, (List.getElem?_eq_some_iff.mp hcall).1, by rw [← hminted]⟩

/-! ## Passes -/

/-- A pass changes no identifier. -/
theorem traced_reconcile {c : Reconciler} {a : Accounts} {orders trades : Payload} {now : Time}
    (h : Traced p v adoptions a.ledger) :
    Traced p v adoptions (c.reconcileState orders trades now a).2.ledger := by
  refine Reconciler.reconcileState_invariant (I := fun acc _ => Traced p v adoptions acc.ledger)
    (T := fun _ _ => True) (O := fun _ _ => True) (j := []) ?_ ?_
    (Reconciler.alongPass_of_forall (fun _ _ => trivial) (fun _ _ => trivial) c now orders trades a)
    h
  · intro acc j row _ hI
    rcases hrow : c.tradeRow row now acc with ⟨r, acc'⟩
    rcases Reconciler.tradeRow_cases hrow with ⟨rfl, -⟩ | ⟨fill, o, -, hrec, -⟩
    · exact hI
    · show Traced p v adoptions acc'.ledger
      rw [hrec.ledger]
      have hput := hI.update (o.withFill fill now)
        (ExecutionLedger.get?_of_findOrder hrec.accepts.found) rfl rfl rfl rfl ?_
      · exact ⟨hput.keyed, hput.named, hput.waiting, hput.unnamed, hput.settled⟩
      · -- a fill fills
        unfold ExecutionOrder.waiting ExecutionOrder.withFill ExecutionOrder.stateAfterFill
        dsimp only
        split <;> simp
  · intro acc j row _ hI
    rcases hrow : Reconciler.orderRow row now acc.ledger with ⟨r, l'⟩
    rcases Reconciler.orderRow_cases hrow with rfl |
      ⟨identifier, o, state, -, hfind, -, hstate, -, rfl⟩
    · exact hI
    · refine hI.update _ (ExecutionLedger.get?_of_findOrder hfind) rfl rfl rfl rfl fun hw => ?_
      -- no status reports an order as waiting
      obtain ⟨hplanned, huncertain⟩ := mapState_ne hstate
      rcases hw with hw | hw
      · exact absurd hw hplanned
      · exact absurd hw huncertain

/-! ## Runs -/

section Runs

variable {s : IdempotentSubmitter} {c : Reconciler}

theorem AdoptionSafe.reload {w : World} (h : AdoptionSafe p env w) :
    AdoptionSafe p env w.reloadLedger :=
  ⟨h.file, h.file, h.rows, h.minted⟩

/-- **One event** keeps the world safe for adopted rows. -/
theorem adoptionSafe_step (hid : Identified s.planner env) (hown : OwnRowsOnly env) {w : World}
    (e : AdoptionEvent) (h : AdoptionSafe s.planner env w) :
    AdoptionSafe s.planner env (w.adoptionStep s env c e) := by
  cases e with
  | submit call crash =>
    exact (IdempotentSubmitter.triple_submit_of_invariant
      (adoptionSafe_submitInvariant hid hown call)).after (fun _ _ hw => hw) (fun _ _ hw => hw)
      (fun _ hw => hw.reload) (fun _ hw => hw.reload) h crash
  | reconcile orders trades now => exact ⟨traced_reconcile h.memory, h.file, h.rows, h.minted⟩
  | persist => exact ⟨h.memory, h.memory, h.rows, h.minted⟩
  | restart => exact h.reload

theorem adoptionSafe_run (hid : Identified s.planner env) (hown : OwnRowsOnly env)
    (book : PortfolioBook) (es : List AdoptionEvent) :
    AdoptionSafe s.planner env (run (World.adoptionStep s env c) (.fresh book) es) :=
  run_invariant (fun _ e h => adoptionSafe_step hid hown e h) (.fresh book) es
    ⟨traced_empty _ _, traced_empty _ _, nofun, nofun⟩

/-- The trade row is booked on the order under the key. -/
def AttributesTo (c : Reconciler) (w : World) (k : String) (row : Row) (now : Time) : Prop :=
  (c.recorded row now w.accounts).map Prod.fst = some k

/-- No venue row grounds the adoption of two orders. -/
def AdoptedOnce (w : World) : Prop :=
  ∀ e ∈ w.adoptions, ∀ e' ∈ w.adoptions, e.1 = e'.1 → e.2 = e'.2

/-- A trade row of an order nobody knows is recorded nowhere; when it can be read
and its fill is new, it raises as an orphan. -/
theorem tradeRow_of_unknown (a : Accounts) (row : Row) (now : Time)
    (hunknown : row.orderId ≠ "" → a.ledger.findOrder row.orderId = none) :
    c.recorded row now a = none ∧ (c.tradeRow row now a).2 = a ∧
      ∀ fill, row.orderId ≠ "" → c.tradeFill row row.orderId = .ok fill →
        fill.fillId ∉ a.ledger.processedFillIds →
        (c.tradeRow row now a).1
          = .error (.booking (.ledger (.orphanFill fill.fillId row.orderId))) := by
  have hnamed : ∀ fill, c.readTrade a.ledger row = .ok (some fill) →
      row.orderId ≠ "" ∧ fill.orderId = row.orderId := by
    intro fill hread
    have hid := (Reconciler.readTrade_some hread).1
    unfold Row.requiredText at hid
    split at hid
    · cases hid
    · rename_i hne
      exact ⟨hne, (Except.ok.inj hid).symm⟩
  refine ⟨?_, ?_, ?_⟩
  · rcases hrow : c.tradeRow row now a with ⟨r, a'⟩
    rcases Reconciler.tradeRow_cases hrow with ⟨-, hnone, -⟩ | ⟨fill, o, hread, hrec, -⟩
    · exact hnone
    · obtain ⟨hne, hsame⟩ := hnamed fill hread
      have hfound := hrec.accepts.found
      rw [hsame, hunknown hne] at hfound
      cases hfound
  · rcases hrow : c.tradeRow row now a with ⟨r, a'⟩
    rcases Reconciler.tradeRow_cases hrow with ⟨rfl, -⟩ | ⟨fill, o, hread, hrec, -⟩
    · rfl
    · obtain ⟨hne, hsame⟩ := hnamed fill hread
      have hfound := hrec.accepts.found
      rw [hsame, hunknown hne] at hfound
      cases hfound
  · intro fill hne hfill hfresh
    have hread : c.readTrade a.ledger row = .ok (some fill) := by
      unfold Reconciler.readTrade Row.requiredText
      rw [if_neg hne]
      dsimp only
      rw [hunknown hne, hfill]
      rfl
    have hsame := (hnamed fill hread).2
    unfold Reconciler.tradeRow bookFill ExecutionLedger.recordFill
    rw [hread]
    dsimp only
    rw [if_neg hfresh, hsame, hunknown hne]

/-- An order row of an order nobody knows leaves the ledger alone. -/
theorem orderRow_of_unknown {l : ExecutionLedger} {row : Row} {now : Time}
    (hunknown : row.text ["order_id", "id"] ≠ "" →
      l.findOrder (row.text ["order_id", "id"]) = none) :
    (Reconciler.orderRow row now l).2 = l := by
  unfold Reconciler.orderRow Row.requiredText
  by_cases hne : row.text ["order_id", "id"] = ""
  · rw [if_pos hne]
  · rw [if_neg hne]
    dsimp only
    rw [hunknown hne]

/-- **What is adopted is never attributed.** In every run, against a venue whose
searches list its own orders, and for every order id under which the venue shows
an adopted order: no trade row of that id is booked on the adopted order, nor on
any other; it changes nothing, and raises as an orphan when it can be read and
its fill is new. A status row of that id changes nothing either. -/
theorem adopted_never_attributed (hid : Identified s.planner env) (hown : OwnRowsOnly env)
    (c : Reconciler) (book : PortfolioBook) (es : List AdoptionEvent) (w : World)
    (hw : w = run (World.adoptionStep s env c) (.fresh book) es) :
    ∀ e ∈ w.adoptions, ∀ row now,
      (ShownAs w.venue e row.orderId →
        ¬AttributesTo c w e.2 row now ∧
        (c.tradeRow row now w.accounts).2 = w.accounts ∧
        ∀ fill, row.orderId ≠ "" → c.tradeFill row row.orderId = .ok fill →
          fill.fillId ∉ w.ledger.processedFillIds →
          (c.tradeRow row now w.accounts).1
            = .error (.booking (.ledger (.orphanFill fill.fillId row.orderId)))) ∧
      (ShownAs w.venue e (row.text ["order_id", "id"]) →
        (Reconciler.orderRow row now w.ledger).2 = w.ledger) := by
  intro e he row now
  have hsafe : AdoptionSafe s.planner env w := by
    rw [hw]
    exact adoptionSafe_run hid hown book es
  have hunknown : ∀ x, ShownAs w.venue e x → x ≠ "" → w.ledger.findOrder x = none :=
    fun x hx hne => hsafe.memory.findOrder hid hsafe.rows hsafe.minted he hx hne
  refine ⟨fun hrow => ?_, fun hrow => orderRow_of_unknown (hunknown _ hrow)⟩
  obtain ⟨hnone, hsame, horphan⟩ := tradeRow_of_unknown (c := c) w.accounts row now (hunknown _ hrow)
  refine ⟨?_, hsame, horphan⟩
  unfold AttributesTo
  rw [hnone]
  exact nofun

end Runs

/-! ### Two orders, one row -/

namespace Adopted

/-- A venue that accepts the first order and not the second, answers neither
call, and lists what it has. -/
def lossyVenue : VenueEnv where
  create := fun n => .timedOut (n = 0)
  query := fun _ => .answers (fun _ => "open") id (fun _ _ h => h)
  mint := Flip.env.mint

theorem identified : Identified Flip.submitter.planner lossyVenue :=
  ⟨Flip.identified.digest_injective, Flip.identified.mint_injective, Flip.identified.mint_fresh⟩

theorem ownRowsOnly : OwnRowsOnly lossyVenue := by
  intro n status arrange complete h own row hrow
  cases h
  exact hrow

def reconciler : Reconciler := ⟨10, Oversold.ten_nonneg⟩

/-- Two BUYs of the same shape, of two decisions. -/
def events : List AdoptionEvent :=
  [.submit (Flip.call .buy) none,
    .submit
      { Flip.call .buy with intent := { (Flip.call .buy).intent with decisionId := "d2" } } none]

/-- The trade the accepted order makes. -/
def trade : Row :=
  Dict.ofList [("order_id", .str (lossyVenue.mint 0)), ("trade_id", .str "t1"),
    ("trading_pair", .str "BTC-USD"), ("trade_type", .str "BUY"), ("amount", .num 1),
    ("price", .num 100), ("fee", .num 1)]

/-- The world after both. -/
def world : World := run (World.adoptionStep Flip.submitter lossyVenue reconciler) (.fresh Flip.book) events

end Adopted

/-- Both orders are adopted on the one row, and its trade is booked on neither:
it raises as an orphan. -/
theorem adoption_unsound :
    ¬AdoptedOnce Adopted.world ∧
      (∃ e ∈ Adopted.world.adoptions, Adopted.trade.orderId = e.1.orderId ∧
        ¬AttributesTo Adopted.reconciler Adopted.world e.2 Adopted.trade 0) ∧
      (Adopted.reconciler.tradeRow Adopted.trade 0 Adopted.world.accounts).1
        = .error (.booking (.ledger (.orphanFill "t1" (Adopted.lossyVenue.mint 0)))) := by
  refine ⟨?_, ?_, ?_⟩
  · unfold AdoptedOnce
    decide +kernel
  · unfold AttributesTo
    decide +kernel
  · decide +kernel

/-- The two adoptions, by the general result. -/
theorem adopted_never_attributed_lossy :
    Adopted.world.adoptions ≠ [] ∧ ∀ e ∈ Adopted.world.adoptions,
      Adopted.trade.orderId = e.1.orderId →
        ¬AttributesTo Adopted.reconciler Adopted.world e.2 Adopted.trade 0 :=
  ⟨by decide +kernel, fun e he hrow =>
    ((adopted_never_attributed Adopted.identified Adopted.ownRowsOnly Adopted.reconciler Flip.book
      Adopted.events Adopted.world rfl e he Adopted.trade 0).1 (.inl hrow)).1⟩

end TraderStack
