import TraderStack.Execution.Atomicity

/-!
# What a reconciliation pass does, row by row

A pass is two folds over rows. Each trade row does nothing, or records one fill
on the order it names (`tradeRow_cases`); each order row does nothing, or moves
one order to a reported state (`orderRow_cases`). `AlongTrades` and
`AlongOrders` carry a condition on the state before each row that is handled,
and the three `_invariant` rules lift what the rows keep to the pass.
-/

namespace TraderStack

open Lib

namespace Reconciler

variable {c : Reconciler} {row : Row} {now : Time} {a a' : Accounts}

/-! ## One row -/

theorem tradeFill_orderId {orderId : String} {fill : ExecutionFill}
    (h : c.tradeFill row orderId = .ok fill) : fill.orderId = orderId := by
  simp only [tradeFill, bind, Except.bind] at h
  repeat' split at h
  all_goals first | cases h; done | cases h; rfl

/-- The fill a trade row records in the ledger, if any, and the key of the order
it is recorded on. -/
def recorded (c : Reconciler) (row : Row) (now : Time) (a : Accounts) :
    Option (String × ExecutionFill) :=
  match c.readTrade a.ledger row with
  | .ok (some fill) =>
    match a.ledger.recordFill fill now with
    | .ok (true, _) => (a.ledger.findOrder fill.orderId).map fun o => (o.orderId, fill)
    | _ => none
  | _ => none

/-- The records after a fill the ledger accepts, whatever the book says to it. -/
structure Recorded (a a' : Accounts) (fill : ExecutionFill) (o : ExecutionOrder) (now : Time) :
    Prop where
  accepts : ExecutionLedger.Accepts a.ledger fill o
  ledger : a'.ledger = (a.ledger.put (o.withFill fill now)).markProcessed fill.fillId
  book : a'.book =
    (a.book.applyFill fill.asset fill.side fill.quantity fill.priceUsd fill.feeUsd now none).2

/-- **What a trade row does**: nothing, or it records the fill it reports. -/
theorem tradeRow_cases {r : Except ReconcileError Bool} (h : c.tradeRow row now a = (r, a')) :
    (a' = a ∧ c.recorded row now a = none ∧ r ≠ .ok true) ∨
    ∃ fill o, c.readTrade a.ledger row = .ok (some fill) ∧ Recorded a a' fill o now ∧
      c.recorded row now a = some (o.orderId, fill) ∧
      ((r = .ok true ∧ a.book.Covers fill) ∨
        (∃ e, r = .error (.booking (.book e)) ∧ ¬a.book.Covers fill)) := by
  unfold tradeRow at h
  unfold recorded
  split at h
  · rename_i e hread
    cases h
    rw [hread]
    exact .inl ⟨rfl, rfl, nofun⟩
  · rename_i hread
    cases h
    rw [hread]
    exact .inl ⟨rfl, rfl, nofun⟩
  · rename_i fill hread
    rw [hread]
    dsimp only
    rcases hbook : bookFill a fill now with ⟨booking, a₁⟩
    rw [hbook] at h
    have hresult : r = (booking.mapError ReconcileError.booking) ∧ a' = a₁ := by
      cases booking <;> cases h <;> exact ⟨rfl, rfl⟩
    obtain ⟨rfl, rfl⟩ := hresult
    rcases bookFill_cases hbook with ⟨rfl, hno⟩ | ⟨o, hacc, hl, happly, hend⟩
    · -- known id, or refused by the ledger
      left
      rcases hno with ⟨rfl, hmem⟩ | ⟨e, rfl, hfresh⟩
      · refine ⟨rfl, ?_, nofun⟩
        unfold ExecutionLedger.recordFill
        rw [if_pos hmem]
      · refine ⟨rfl, ?_, nofun⟩
        rcases hrec : a'.ledger.recordFill fill now with e' | ⟨_ | _, l⟩
        · rfl
        · rfl
        · unfold bookFill at hbook
          rw [hrec] at hbook
          dsimp only at hbook
          split at hbook <;> cases hbook
    · right
      refine ⟨fill, o, rfl, ⟨hacc, hl, by rw [happly]⟩, ?_, ?_⟩
      · rw [ExecutionLedger.recordFill_of_accepts hacc]
        dsimp only
        rw [hacc.found, Option.map_some]
      · rcases hend with ⟨rfl, hcov⟩ | ⟨e, rfl, hcov⟩
        · exact .inl ⟨rfl, hcov⟩
        · exact .inr ⟨e, rfl, hcov⟩

/-- **What an order row does**: nothing, or it moves the order it names, which
is no local paper fill, to the state it reports. -/
theorem orderRow_cases {l l' : ExecutionLedger}
    {r : Except ReconcileError (Option (String × OrderLifecycleState × String))}
    (h : orderRow row now l = (r, l')) :
    l' = l ∨
      ∃ identifier o state, row.requiredText ["order_id", "id"] = .ok identifier ∧
        l.findOrder identifier = some o ∧ isLocalPaperFill o = false ∧
        mapState (Text.lower (row.text ["status"])) = some state ∧
        o.state.isLegalTransition state = true ∧
        l' = l.put { o with state := state, lastUpdatedAt := now } := by
  unfold orderRow at h
  split at h
  · cases h
    exact .inl rfl
  rename_i identifier hid
  split at h
  · cases h
    exact .inl rfl
  rename_i o hfind
  split at h
  · cases h
    exact .inl rfl
  rename_i hlocal
  dsimp only at h
  split at h
  · cases h
    exact .inl rfl
  rename_i state hstate
  split at h
  · rename_i hlegal
    split at h
    · cases h
      exact .inl rfl
    · rename_i l₁ hupdate
      cases h
      right
      refine ⟨identifier, o, state, hid, hfind, by simpa using hlocal, hstate, hlegal, ?_⟩
      have hget := ExecutionLedger.get?_of_findOrder hfind
      have hself : l.findOrder o.orderId = some o := by
        unfold ExecutionLedger.findOrder
        rw [hget]
      unfold ExecutionLedger.updateOrderState ExecutionOrder.transition at hupdate
      rw [hself] at hupdate
      dsimp only at hupdate
      rw [if_pos hlegal] at hupdate
      exact (Except.ok.inj hupdate).symm
  · split at h <;> (cases h; exact .inl rfl)

/-! ## The rows of a pass -/

/-- A fill read from a trade row names the order the row names, which is no local
paper fill. -/
theorem readTrade_some {l : ExecutionLedger} {fill : ExecutionFill}
    (h : c.readTrade l row = .ok (some fill)) :
    row.requiredText ["order_id"] = .ok fill.orderId ∧
      c.tradeFill row fill.orderId = .ok fill ∧
      ∀ o, l.findOrder fill.orderId = some o → isLocalPaperFill o = false := by
  unfold readTrade at h
  split at h
  · cases h
  rename_i orderId hid
  split at h
  · cases h
  rename_i hlocal
  cases hfill : c.tradeFill row orderId with
  | error e =>
    rw [hfill] at h
    cases h
  | ok fill' =>
    rw [hfill] at h
    cases h
    have hsame : fill.orderId = orderId := tradeFill_orderId hfill
    subst hsame
    refine ⟨hid, hfill, fun o ho => ?_⟩
    rw [ho] at hlocal
    simpa using hlocal

/-- A condition on the records before each trade row that is handled. -/
def AlongTrades (c : Reconciler) (now : Time) (G : Accounts → Row → Prop) :
    List Row → Accounts → Prop
  | [], _ => True
  | row :: rows, a =>
    G a row ∧
      ((c.tradeRow row now a).1.toOption.isSome →
        c.AlongTrades now G rows (c.tradeRow row now a).2)

/-- A condition on the ledger before each order row that is handled. -/
def AlongOrders (now : Time) (G : ExecutionLedger → Row → Prop) :
    List Row → ExecutionLedger → Prop
  | [], _ => True
  | row :: rows, l =>
    G l row ∧ ((orderRow row now l).1.toOption.isSome →
      AlongOrders now G rows (orderRow row now l).2)

/-- Conditions on the records before each row a pass handles. -/
def AlongPass (c : Reconciler) (now : Time) (T : Accounts → Row → Prop)
    (O : ExecutionLedger → Row → Prop) (ordersPayload tradesPayload : Payload) (a : Accounts) :
    Prop :=
  match payloadRows ordersPayload, payloadRows tradesPayload with
  | .ok rows, .ok trades =>
    c.AlongTrades now T trades a ∧
      ((c.reconcileTrades now trades a).1.toOption.isSome →
        AlongOrders now O rows (c.reconcileTrades now trades a).2.ledger)
  | _, _ => True

/-- What holds of every row holds along every pass. -/
theorem alongPass_of_forall {T : Accounts → Row → Prop} {O : ExecutionLedger → Row → Prop}
    (hT : ∀ a row, T a row) (hO : ∀ l row, O l row) (c : Reconciler) (now : Time) (p q : Payload)
    (a : Accounts) : c.AlongPass now T O p q a := by
  have htrades : ∀ rows a, c.AlongTrades now T rows a := by
    intro rows
    induction rows with
    | nil => exact fun _ => trivial
    | cons row rows ih => exact fun a => ⟨hT a row, fun _ => ih _⟩
  have horders : ∀ rows l, AlongOrders now O rows l := by
    intro rows
    induction rows with
    | nil => exact fun _ => trivial
    | cons row rows ih => exact fun l => ⟨hO l row, fun _ => ih _⟩
  unfold AlongPass
  split
  · exact ⟨htrades _ _, fun _ => horders _ _⟩
  · trivial

section Decidable

variable (c now) (T : Accounts → Row → Prop) (O : ExecutionLedger → Row → Prop)
  [∀ a row, Decidable (T a row)] [∀ l row, Decidable (O l row)]

instance decidableAlongTrades : ∀ rows a, Decidable (c.AlongTrades now T rows a)
  | [], _ => isTrue trivial
  | row :: rows, a =>
    haveI := decidableAlongTrades rows (c.tradeRow row now a).2
    inferInstanceAs (Decidable (T a row ∧ (_ → c.AlongTrades now T rows _)))

instance decidableAlongOrders : ∀ rows l, Decidable (AlongOrders now O rows l)
  | [], _ => isTrue trivial
  | row :: rows, l =>
    haveI := decidableAlongOrders rows (orderRow row now l).2
    inferInstanceAs (Decidable (O l row ∧ (_ → AlongOrders now O rows _)))

instance (p q : Payload) (a : Accounts) : Decidable (c.AlongPass now T O p q a) :=
  match hp : payloadRows p, hq : payloadRows q with
  | .ok rows, .ok trades =>
    decidable_of_iff (c.AlongTrades now T trades a ∧
      ((c.reconcileTrades now trades a).1.toOption.isSome →
        AlongOrders now O rows (c.reconcileTrades now trades a).2.ledger))
      (by simp only [AlongPass, hp, hq])
  | .error _, _ => isTrue (by simp only [AlongPass, hp])
  | .ok _, .error _ => isTrue (by simp only [AlongPass, hp, hq])

end Decidable

/-! ## What a pass records and keeps -/

/-- The fills the trade rows record, in order, each with its order's key. -/
def recordedAll (c : Reconciler) (now : Time) :
    List Row → Accounts → List (String × ExecutionFill)
  | [], _ => []
  | row :: rows, a =>
    (c.recorded row now a).toList ++
      (if (c.tradeRow row now a).1.toOption.isSome then
        c.recordedAll now rows (c.tradeRow row now a).2 else [])

/-- The fills a pass records, in order. -/
def recordedByPass (c : Reconciler) (ordersPayload tradesPayload : Payload) (now : Time)
    (a : Accounts) : List (String × ExecutionFill) :=
  match payloadRows ordersPayload, payloadRows tradesPayload with
  | .ok _, .ok trades => c.recordedAll now trades a
  | _, _ => []

/-- What each trade row handled keeps, with the fills recorded so far, the trades
of a pass keep. -/
theorem reconcileTrades_invariant {I : Accounts → List (String × ExecutionFill) → Prop}
    {G : Accounts → Row → Prop}
    (hstep : ∀ a j row, G a row → I a j →
      I (c.tradeRow row now a).2 (j ++ (c.recorded row now a).toList)) (rows : List Row) :
    ∀ a j, c.AlongTrades now G rows a → I a j →
      I (c.reconcileTrades now rows a).2 (j ++ c.recordedAll now rows a) := by
  induction rows with
  | nil =>
    intro a j _ h
    rw [recordedAll, List.append_nil]
    exact h
  | cons row rows ih =>
    intro a j hG hI
    have hnext := hstep a j row hG.1 hI
    have hrest := hG.2
    unfold reconcileTrades recordedAll
    rw [← List.append_assoc]
    rcases hrow : c.tradeRow row now a with ⟨r, a₁⟩
    rw [hrow] at hnext hrest
    cases r with
    | error e =>
      show I a₁ (_ ++ [])
      rw [List.append_nil]
      exact hnext
    | ok booked => exact ih a₁ _ (hrest rfl) hnext

/-- What each order row handled keeps, the orders of a pass keep. -/
theorem reconcileOrders_invariant {I : ExecutionLedger → Prop} {G : ExecutionLedger → Row → Prop}
    (hstep : ∀ l row, G l row → I l → I (orderRow row now l).2) (rows : List Row) :
    ∀ l, AlongOrders now G rows l → I l → I (reconcileOrders now rows l).2 := by
  induction rows with
  | nil => exact fun _ _ h => h
  | cons row rows ih =>
    intro l hG hI
    have hnext := hstep l row hG.1 hI
    have hrest := hG.2
    unfold reconcileOrders
    rcases hrow : orderRow row now l with ⟨r, l₁⟩
    rw [hrow] at hnext hrest
    cases r with
    | error e => exact hnext
    | ok conflict => exact ih l₁ (hrest rfl) hnext

/-- **What the rows keep, the pass keeps**, also when it raises part-way. -/
theorem reconcileState_invariant {I : Accounts → List (String × ExecutionFill) → Prop}
    {T : Accounts → Row → Prop} {O : ExecutionLedger → Row → Prop}
    (htrade : ∀ a j row, T a row → I a j →
      I (c.tradeRow row now a).2 (j ++ (c.recorded row now a).toList))
    (horder : ∀ a j row, O a.ledger row → I a j →
      I { a with ledger := (orderRow row now a.ledger).2 } j)
    {ordersPayload tradesPayload : Payload} {j : List (String × ExecutionFill)}
    (hG : c.AlongPass now T O ordersPayload tradesPayload a) (hI : I a j) :
    I (c.reconcileState ordersPayload tradesPayload now a).2
      (j ++ c.recordedByPass ordersPayload tradesPayload now a) := by
  unfold reconcileState recordedByPass
  cases hrows : payloadRows ordersPayload with
  | error e =>
    show I a (j ++ [])
    rw [List.append_nil]
    exact hI
  | ok rows =>
    cases htrades : payloadRows tradesPayload with
    | error e =>
      show I a (j ++ [])
      rw [List.append_nil]
      exact hI
    | ok trades =>
      simp only [AlongPass, hrows, htrades] at hG
      obtain ⟨hT, hO⟩ := hG
      have hafter := reconcileTrades_invariant htrade trades a j hT hI
      dsimp only
      rcases hrec : c.reconcileTrades now trades a with ⟨r, a₁⟩
      rw [hrec] at hafter hO
      cases r with
      | error e => exact hafter
      | ok applied =>
        have hledger := reconcileOrders_invariant
          (I := fun l => I { a₁ with ledger := l } (j ++ c.recordedAll now trades a))
          (fun l row hG hI => horder { a₁ with ledger := l } _ row hG hI) rows a₁.ledger (hO rfl)
          hafter
        dsimp only
        rcases hord : reconcileOrders now rows a₁.ledger with ⟨r', l⟩
        rw [hord] at hledger
        cases r' <;> exact hledger

end Reconciler

end TraderStack
