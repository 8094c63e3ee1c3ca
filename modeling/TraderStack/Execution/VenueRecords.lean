import TraderStack.Execution.Submitter

/-!
# What the ledger knows about the venue

The ledger sees the venue only through answers that may be lost. `Safe` is what
nevertheless ties the two together at every persisted state: each order accounts
for the create calls made under its client order id (`Fits`), a decision without
an order was never sent, and every accepted order carries an id the venue minted
for one call.

The last three theorems are all the submitter's proofs use: storing an order
that fits keeps `Safe`, so does a create call the order has paid for, and an
uncertain order's own accepted order is always recognised by the search.
-/

namespace TraderStack

open Lib

/-- The create calls made under a client order id. -/
def Venue.callsFor (v : Venue) (clientOrderId : String) : List HummingbotOrderRequest :=
  v.calls.filter fun r => r.clientOrderId = some clientOrderId

/-- The orders accepted under a client order id. -/
def Venue.acceptedFor (v : Venue) (clientOrderId : String) : List VenueOrder :=
  v.accepted.filter fun a => a.request.clientOrderId = some clientOrderId

/-- What is promised about identifiers: the hash behind client order ids does
not collide, and the venue's own ids are distinct and are no client order ids. -/
structure Identified (p : ExecutionPlanner) (env : VenueEnv) : Prop where
  digest_injective : Function.Injective p.digest
  mint_injective : Function.Injective env.mint
  mint_fresh : ∀ n d, env.mint n ≠ p.clientOrderIdFor d

/-- The venue order has the shape of the ledger's order, as `_matches_plan`
compares them. -/
structure VenueOrder.SameShape (a : VenueOrder) (o : ExecutionOrder) : Prop where
  pair_ne : a.request.tradingPair ≠ ""
  asset : pairAsset a.request.tradingPair = pairAsset o.asset
  side : a.request.tradeType = o.side.tradeType
  amount : a.request.amount = o.requestedQuantity

/-- The shape is the asset, the side and the quantity. -/
theorem VenueOrder.SameShape.congr {a : VenueOrder} {o o' : ExecutionOrder} (h : a.SameShape o)
    (hasset : o'.asset = o.asset) (hside : o'.side = o.side)
    (hquantity : o'.requestedQuantity = o.requestedQuantity) : a.SameShape o' where
  pair_ne := h.pair_ne
  asset := by rw [hasset, h.asset]
  side := by rw [hside, h.side]
  amount := by rw [hquantity, h.amount]

/-- An order accounts for the venue's activity under its client order id. The
last two fields are claimed for the decisions in `D` only. -/
structure Fits (s : IdempotentSubmitter) (D : String → Prop) (v : Venue) (o : ExecutionOrder) :
    Prop where
  key : o.orderId = s.planner.clientOrderIdFor o.decisionId
  clientId : o.clientOrderId = some o.orderId
  venueId : ∀ x, o.venueOrderId = some x →
    ∃ a ∈ v.accepted, a.id = x ∧ a.request.clientOrderId = some o.orderId
  unanswered : o.state = .submissionUncertain → o.venueOrderId = none
  calls_le : (v.callsFor o.orderId).length ≤ o.submissionAttempts
  attempts_le : o.submissionAttempts ≤ s.maxRetries + 1
  once : D o.decisionId → (v.acceptedFor o.orderId).length ≤ 1
  shaped : D o.decisionId → o.state = .submissionUncertain →
    ∀ a ∈ v.acceptedFor o.orderId, a.SameShape o

/-- **The records are safe**: every order fits the venue, what has no order was
never sent, and accepted orders have minted ids. -/
structure Safe (s : IdempotentSubmitter) (env : VenueEnv) (D : String → Prop)
    (l : ExecutionLedger) (v : Venue) : Prop where
  fits : ∀ k o, l.orders.get? k = some o → Fits s D v o
  unsent : ∀ d, l.orders.get? (s.planner.clientOrderIdFor d) = none →
    v.callsFor (s.planner.clientOrderIdFor d) = []
  minted : ∀ a ∈ v.accepted, ∃ n, a.id = env.mint n ∧ v.calls[n]? = some a.request

variable {s : IdempotentSubmitter} {env : VenueEnv} {D : String → Prop} {l : ExecutionLedger}
  {v : Venue} {o : ExecutionOrder} {req : HummingbotOrderRequest}

/-- Client order ids are distinct for distinct decisions. -/
theorem clientOrderIdFor_injective {p : ExecutionPlanner}
    (h : Function.Injective p.digest) : Function.Injective p.clientOrderIdFor := by
  intro d d' heq
  apply h
  have hchars := congrArg String.toList heq
  simp only [ExecutionPlanner.clientOrderIdFor, String.toList_append, List.append_assoc,
    List.append_cancel_left_eq] at hchars
  exact String.toList_injective hchars

theorem safe_empty : Safe s env D .empty .empty where
  fits := by
    intro k o h
    simp [ExecutionLedger.empty] at h
  unsent := fun _ _ => rfl
  minted := nofun

/-! ## The venue after a create call -/

@[simp] theorem calls_create (v : Venue) (req : HummingbotOrderRequest) :
    (v.create env req).2.calls = v.calls ++ [req] := rfl

theorem accepted_create (v : Venue) (req : HummingbotOrderRequest) :
    (v.create env req).2.accepted = v.accepted ++
      (if (env.create v.calls.length).accepts then [⟨env.mint v.calls.length, req⟩] else []) := by
  unfold Venue.create
  dsimp only
  split
  · rfl
  · rw [List.append_nil]

theorem callsFor_create (v : Venue) (req : HummingbotOrderRequest) (k : String) :
    (v.create env req).2.callsFor k =
      v.callsFor k ++ (if req.clientOrderId = some k then [req] else []) := by
  rw [Venue.callsFor, calls_create, List.filter_append, Venue.callsFor]
  congr 1
  rw [List.filter_cons, List.filter_nil]
  simp only [decide_eq_true_eq]

/-- A create call under another client order id does not count here. -/
theorem callsFor_create_of_ne {k : String} (h : req.clientOrderId ≠ some k) :
    (v.create env req).2.callsFor k = v.callsFor k := by
  rw [callsFor_create, if_neg h, List.append_nil]

theorem mem_acceptedFor {k : String} {a : VenueOrder} :
    a ∈ v.acceptedFor k ↔ a ∈ v.accepted ∧ a.request.clientOrderId = some k := by
  rw [Venue.acceptedFor, List.mem_filter, decide_eq_true_eq]

theorem acceptedFor_create (v : Venue) (req : HummingbotOrderRequest) (k : String) :
    (v.create env req).2.acceptedFor k =
      v.acceptedFor k ++
        (if (env.create v.calls.length).accepts ∧ req.clientOrderId = some k then
          [⟨env.mint v.calls.length, req⟩] else []) := by
  rw [Venue.acceptedFor, accepted_create, List.filter_append, Venue.acceptedFor]
  congr 1
  by_cases hacc : (env.create v.calls.length).accepts = true
  · rw [if_pos hacc, List.filter_cons, List.filter_nil]
    simp only [decide_eq_true_eq, hacc, true_and]
  · rw [if_neg hacc, if_neg (fun h => hacc h.1), List.filter_nil]

theorem acceptedFor_create_of_ne {k : String} (h : req.clientOrderId ≠ some k) :
    (v.create env req).2.acceptedFor k = v.acceptedFor k := by
  rw [acceptedFor_create, if_neg (fun hk => h hk.2), List.append_nil]

/-- The new accepted orders are the old ones and, perhaps, this one. -/
theorem mem_acceptedFor_create {k : String} {a : VenueOrder}
    (h : a ∈ (v.create env req).2.acceptedFor k) :
    a ∈ v.acceptedFor k ∨ a = ⟨env.mint v.calls.length, req⟩ := by
  rw [acceptedFor_create, List.mem_append] at h
  refine h.imp_right fun h => ?_
  split at h
  · exact List.mem_singleton.mp h
  · cases h

/-- A first acceptance is the only one. -/
theorem acceptedFor_create_length_le {k : String} (h : v.acceptedFor k = []) :
    ((v.create env req).2.acceptedFor k).length ≤ 1 := by
  rw [acceptedFor_create, h, List.nil_append]
  split
  · exact le_rfl
  · exact Nat.zero_le 1

/-- What was never sent was never accepted. -/
theorem acceptedFor_eq_nil (hs : Safe s env D l v) {k : String} (h : v.callsFor k = []) :
    v.acceptedFor k = [] := by
  rw [List.eq_nil_iff_forall_not_mem] at h ⊢
  intro a ha
  obtain ⟨hacc, hk⟩ := mem_acceptedFor.mp ha
  obtain ⟨n, -, hn⟩ := hs.minted a hacc
  refine h a.request ?_
  rw [Venue.callsFor, List.mem_filter, decide_eq_true_eq]
  exact ⟨List.mem_of_getElem? hn, hk⟩

/-! ## Keeping the records safe -/

/-- Storing an order that fits keeps the records safe. -/
theorem Safe.put (hs : Safe s env D l v) (ho : Fits s D v o) : Safe s env D (l.put o) v where
  fits := by
    intro k o' h
    rw [ExecutionLedger.get?_put] at h
    split at h
    · cases h
      exact ho
    · exact hs.fits k o' h
  unsent := by
    intro d h
    rw [ExecutionLedger.get?_put] at h
    split at h
    · cases h
    · exact hs.unsent d h
  minted := hs.minted

/-- An order's own bookkeeping may change freely once it is no longer, or not
yet, uncertain. -/
theorem Fits.resolve (ho : Fits s D v o) {state : OrderLifecycleState} {reason : Option Reason}
    {now : Time} (h : state ≠ .submissionUncertain) :
    Fits s D v { o with state := state, lastUpdatedAt := now, reason := reason } where
  key := ho.key
  clientId := ho.clientId
  venueId := ho.venueId
  unanswered := fun hstate => absurd hstate h
  calls_le := ho.calls_le
  attempts_le := ho.attempts_le
  once := ho.once
  shaped := fun _ hstate => absurd hstate h

/-- An order takes the id of a venue order that was accepted for it. -/
theorem Fits.accept (ho : Fits s D v o) {id : String} {state : OrderLifecycleState}
    {reason : Option Reason} {now : Time} (h : state ≠ .submissionUncertain)
    (hid : ∃ a ∈ v.accepted, a.id = id ∧ a.request.clientOrderId = some o.orderId) :
    Fits s D v
      { o with
        venueOrderId := some id, state := state, lastUpdatedAt := now, reason := reason } where
  key := ho.key
  clientId := ho.clientId
  venueId := by
    rintro x ⟨⟩
    exact hid
  unanswered := fun hstate => absurd hstate h
  calls_le := ho.calls_le
  attempts_le := ho.attempts_le
  once := ho.once
  shaped := fun _ hstate => absurd hstate h

/-- Parking an order keeps it fitting if what was accepted has its shape. -/
theorem Fits.park (ho : Fits s D v o) {reason : Option Reason} {now : Time}
    (hvenue : o.venueOrderId = none)
    (hshape : D o.decisionId → ∀ a ∈ v.acceptedFor o.orderId, a.SameShape o) :
    Fits s D v
      { o with state := .submissionUncertain, lastUpdatedAt := now, reason := reason } where
  key := ho.key
  clientId := ho.clientId
  venueId := ho.venueId
  unanswered := fun _ => hvenue
  calls_le := ho.calls_le
  attempts_le := ho.attempts_le
  once := ho.once
  shaped := fun hD _ a ha => (hshape hD a ha).congr rfl rfl rfl

/-- An order with nothing accepted for it may count one more attempt and take a
new quantity. -/
theorem Fits.attempt (ho : Fits s D v o) {attempts : ℕ} {quantity : ℚ} (hq : 0 < quantity)
    (hnone : D o.decisionId → v.acceptedFor o.orderId = []) (hle : o.submissionAttempts ≤ attempts)
    (hmax : attempts ≤ s.maxRetries + 1) :
    Fits s D v
      { o with
        submissionAttempts := attempts, requestedQuantity := quantity, requested_pos := hq } where
  key := ho.key
  clientId := ho.clientId
  venueId := ho.venueId
  unanswered := ho.unanswered
  calls_le := ho.calls_le.trans hle
  attempts_le := hmax
  once := ho.once
  shaped := by
    intro hD _ a ha
    rw [hnone hD] at ha
    cases ha

/-- A create call that an order has paid for with an attempt keeps the records
safe, whatever the venue does with it. -/
theorem Safe.create (hs : Safe s env D l v)
    (ho : l.orders.get? o.orderId = some o) (hreq : req.clientOrderId = some o.orderId)
    (hpaid : (v.callsFor o.orderId).length + 1 ≤ o.submissionAttempts)
    (hnone : D o.decisionId → v.acceptedFor o.orderId = [])
    (hshape : D o.decisionId → ∀ id, VenueOrder.SameShape ⟨id, req⟩ o) :
    Safe s env D l (v.create env req).2 where
  fits := by
    intro k o' hk
    have hfit := hs.fits k o' hk
    have hvenueId : ∀ x, o'.venueOrderId = some x →
        ∃ a ∈ (v.create env req).2.accepted, a.id = x ∧
          a.request.clientOrderId = some o'.orderId := by
      intro x hx
      obtain ⟨a, ha, hax⟩ := hfit.venueId x hx
      refine ⟨a, ?_, hax⟩
      rw [accepted_create]
      exact List.mem_append_left _ ha
    by_cases hsame : o'.orderId = o.orderId
    · -- the order sent: its attempt pays for the call
      have hoo : o' = o := by
        have hk' := l.keyed k o' hk
        rw [hk'] at hsame
        rw [hsame, ho] at hk
        exact (Option.some.inj hk).symm
      subst hoo
      refine ⟨hfit.key, hfit.clientId, hvenueId, hfit.unanswered, ?_, hfit.attempts_le, ?_, ?_⟩
      · rw [callsFor_create, if_pos hreq, List.length_append]
        exact hpaid
      · exact fun hD => acceptedFor_create_length_le (hnone hD)
      · intro hD _ a ha
        rcases mem_acceptedFor_create ha with ha | rfl
        · rw [hnone hD] at ha
          cases ha
        · exact hshape hD _
    · -- any other order has another client order id
      have hne : req.clientOrderId ≠ some o'.orderId := by
        rw [hreq]
        exact fun h => hsame (Option.some.inj h).symm
      refine ⟨hfit.key, hfit.clientId, hvenueId, hfit.unanswered, ?_, hfit.attempts_le, ?_, ?_⟩
      · rw [callsFor_create_of_ne hne]
        exact hfit.calls_le
      · rw [acceptedFor_create_of_ne hne]
        exact hfit.once
      · rw [acceptedFor_create_of_ne hne]
        exact hfit.shaped
  unsent := by
    intro d hd
    rw [callsFor_create_of_ne, hs.unsent d hd]
    rw [hreq]
    intro h
    rw [← Option.some.inj h, ho] at hd
    cases hd
  minted := by
    intro a ha
    rw [accepted_create, List.mem_append] at ha
    rcases ha with ha | ha
    · obtain ⟨n, hn, hcall⟩ := hs.minted a ha
      refine ⟨n, hn, ?_⟩
      have hlt := (List.getElem?_eq_some_iff.mp hcall).1
      rw [calls_create, List.getElem?_append_left hlt]
      exact hcall
    · split at ha
      · rcases List.mem_singleton.mp ha with rfl
        refine ⟨v.calls.length, rfl, ?_⟩
        rw [calls_create, List.getElem?_concat_length]
      · cases ha

/-- A search changes nothing that counts. -/
theorem Safe.search (hs : Safe s env D l v) : Safe s env D l (v.search env).2 where
  fits := fun k o h =>
    let hfit := hs.fits k o h
    ⟨hfit.key, hfit.clientId, hfit.venueId, hfit.unanswered, hfit.calls_le, hfit.attempts_le,
      hfit.once, hfit.shaped⟩
  unsent := hs.unsent
  minted := hs.minted

/-! ## The search recognises an order's own venue order -/

/-- The id of an uncertain order's accepted venue order is known to no order of
the ledger. -/
theorem findOrder_own (hid : Identified s.planner env) (hs : Safe s env D l v)
    (ho : l.orders.get? o.orderId = some o) (huncertain : o.state = .submissionUncertain)
    {a : VenueOrder} (ha : a ∈ v.acceptedFor o.orderId) : l.findOrder a.id = none := by
  obtain ⟨hacc, hreq⟩ := mem_acceptedFor.mp ha
  obtain ⟨n, hn, hcall⟩ := hs.minted a hacc
  cases hfind : l.findOrder a.id with
  | none => rfl
  | some o' =>
    exfalso
    have hget' := ExecutionLedger.get?_of_findOrder hfind
    have hfit' := hs.fits _ _ hget'
    -- client order ids are not venue ids
    have hkey : o'.orderId ≠ a.id := by
      rw [hfit'.key, hn]
      exact (hid.mint_fresh n _).symm
    rcases ExecutionLedger.names_of_findOrder hfind with h | h
    · exact hkey h
    · rw [ExecutionOrder.answersTo, Bool.or_eq_true, decide_eq_true_eq, decide_eq_true_eq] at h
      rcases h with h | h
      · -- a venue id names one accepted order, and this one is another order's
        obtain ⟨a', hacc', hid', hreq'⟩ := hfit'.venueId _ h
        obtain ⟨m, hm, hcall'⟩ := hs.minted a' hacc'
        have hmn : m = n := hid.mint_injective (by rw [← hm, ← hn, hid'])
        rw [hmn, hcall] at hcall'
        rw [← Option.some.inj hcall', hreq] at hreq'
        rw [← Option.some.inj hreq', ho] at hget'
        cases hget'
        rw [(hs.fits _ _ ho).unanswered huncertain] at h
        cases h
      · rw [hfit'.clientId] at h
        exact hkey (Option.some.inj h)

/-- A row of the order's shape that the ledger cannot account for shows it. -/
theorem shows_of_sameShape {a : VenueOrder} (hshape : a.SameShape o)
    (hunknown : l.findOrder a.id = none) (status quote clientOrderId : String) :
    (a.row status).shows l clientOrderId (o.asset ++ "-" ++ quote) o.side.tradeType
      o.requestedQuantity = .ok true := by
  have hpair : (a.row status).text ["trading_pair", "symbol"] = a.request.tradingPair := by
    simp [Row.text, hshape.pair_ne]
  have hside : (a.row status).text ["trade_type", "side"] = o.side.tradeType := by
    simp only [Row.text, row_trade_type, hshape.side]
    cases o.side <;> rfl
  have hside_ne : o.side.tradeType ≠ "" := by
    cases o.side <;> decide
  have hamount : (a.row status).number ["amount", "quantity"] = .ok o.requestedQuantity := by
    simp [Row.number, Row.firstNumber, Row.fieldNumber, hshape.amount]
  have hclose : |o.requestedQuantity - o.requestedQuantity| ≤
      max (1 / 10 ^ 9) (|o.requestedQuantity| * (1 / 10 ^ 6)) := by
    rw [sub_self, abs_zero]
    exact le_max_of_le_left (by norm_num)
  have hmatch : (a.row status).matchesPlan (o.asset ++ "-" ++ quote) o.side.tradeType
      o.requestedQuantity (1 / 10 ^ 9) = .ok true := by
    simp only [Row.matchesPlan, hpair, hside, hamount, pairAsset_append, hshape.asset]
    simp [hshape.pair_ne, hside_ne, Except.map]
  have hid : (a.row status).text ["order_id", "id"] = a.id := by
    by_cases h : a.id = ""
    · simp [Row.text, h]
      rfl
    · simp [Row.text, h]
  unfold Row.shows
  split
  · rfl
  · simp only [hid, hunknown, hmatch]
    simp

/-- A search that ends without a yes has said no to every row. -/
theorem shows_of_venueKnowsOrder {k pair side : String} {q : ℚ} :
    ∀ {rows : List Row}, venueKnowsOrder l k pair side q rows = .ok none →
      ∀ row ∈ rows, row.shows l k pair side q = .ok false := by
  intro rows
  induction rows with
  | nil => exact fun _ _ h => nomatch h
  | cons row rows ih =>
    intro h
    unfold venueKnowsOrder at h
    split at h
    · cases h
    · cases h
    · rename_i hrow
      intro row' hmem
      rcases List.mem_cons.mp hmem with rfl | hmem
      · exact hrow
      · exact ih h row' hmem

/-- **A no is a no**: when the search over the venue's own rows does not find an
uncertain order whose accepted orders have its shape, nothing was accepted. -/
theorem not_accepted_of_unknown (hid : Identified s.planner env) (hs : Safe s env D l v)
    (ho : l.orders.get? o.orderId = some o) (huncertain : o.state = .submissionUncertain)
    (hD : D o.decisionId) {quote k : String} {status : VenueOrder → String} {rows : List Row}
    (hown : ∀ a ∈ v.accepted, a.row (status a) ∈ rows)
    (hno : venueKnowsOrder l k (o.asset ++ "-" ++ quote) o.side.tradeType o.requestedQuantity
      rows = .ok none) : v.acceptedFor o.orderId = [] := by
  rw [List.eq_nil_iff_forall_not_mem]
  intro a ha
  have hshape := (hs.fits _ _ ho).shaped hD huncertain a ha
  have hyes := shows_of_sameShape hshape (findOrder_own hid hs ho huncertain ha) (status a) quote k
  rw [shows_of_venueKnowsOrder hno _ (hown a (mem_acceptedFor.mp ha).1)] at hyes
  cases hyes

end TraderStack
