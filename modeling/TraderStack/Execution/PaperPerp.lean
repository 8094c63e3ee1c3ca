import TraderStack.Execution.Atomicity

/-!
# The paper perp book (paper_perp.py)

`PaperPerpBook` holds at most one hedge an asset. `maybe_hedge_spot_fill` opens
one against a spot fill, opposite to it, at an explicit perp mid, and records it
in the execution ledger the spot fills are in; `apply_funding` moves the funding
PnL of an open one. Nothing closes a hedge. The book works in paper mode only,
which its constructor checks.

- `hedge_cases`: what a hedge attempt can do to the book and the ledger;
- `opens_iff`: when it books something, said before it is made.
-/

namespace TraderStack

open Lib

/-- `_PAPER_PERP_ID_PREFIX`. -/
def paperPerpIdPrefix : String := "paper-perp:"

/-- `paper_perp_client_order_id` (paper_perp.py:121–122). -/
def paperPerpClientOrderId (decisionId asset : String) : String :=
  paperPerpIdPrefix ++ (decisionId ++ ":" ++ Text.upper asset)

/-- `paper_perp_fill_id` (paper_perp.py:125–126). -/
def paperPerpFillId (clientOrderId : String) : String :=
  paperPerpIdPrefix ++ ("fill:" ++ clientOrderId)

/-- `hedge_side` (paper_perp.py:129–132): long spot, short perp. -/
def hedgeSide : Side → Side
  | .buy => .sell
  | .sell => .buy

/-- `carry_hedged_sign_spot_side` (paper_perp.py:106–118): the spot side a
funding rate pays. -/
def carryHedgedSignSpotSide (fundingRate : ℚ) : Option Side :=
  if 0 < fundingRate then some .buy
  else if fundingRate < 0 then some .sell
  else none

/-- `PaperPerpStatus` (paper_perp.py:55–61). -/
inductive PaperPerpStatus where
  | hedged
  | fundingApplied
  | skipped
  | withheld
  | rejected
  | duplicate
deriving DecidableEq, Repr

/-- Why a hedge or a funding print was not applied. -/
inductive PaperPerpReason where
  | hedgeWithheld
  | fundingWithheld
  | midMissing
  | alreadyBooked (clientOrderId : String)
  | alreadyOpen (asset : String)
  | noPosition (asset : String)
  | noSettlements
deriving DecidableEq

/-- The text of the reason. -/
def PaperPerpReason.text : PaperPerpReason → String
  | .hedgeWithheld => "kill switch engaged; paper perp hedge withheld"
  | .fundingWithheld => "kill switch engaged; paper perp funding withheld"
  | .midMissing =>
    "perp mid missing; refuse to invent from the spot fill price or from last-trade"
  | .alreadyBooked id => "paper perp hedge " ++ id ++ " already booked"
  | .alreadyOpen asset =>
    "paper perp already open for " ++ asset ++ "; stub is one hedge per asset"
  | .noPosition asset => "no paper perp position for " ++ asset
  | .noSettlements => "no funding settlements supplied; refuse to invent a rate"

/-- `PaperPerpPosition` (paper_perp.py:65–71). -/
structure PaperPerpPosition where
  asset : String
  side : Side
  quantity : ℚ
  entryPriceUsd : ℚ
  fundingPnlUsd : ℚ
  clientOrderId : String
  quantity_pos : 0 < quantity

/-- `PaperPerpOutcome` (paper_perp.py:75–84). -/
structure PaperPerpOutcome where
  status : PaperPerpStatus
  reason : Option PaperPerpReason
  position : Option PaperPerpPosition
  feeUsd : ℚ
  fundingPnlUsd : ℚ

namespace PaperPerpOutcome

/-- `applied` (paper_perp.py:82–84). -/
def applied (out : PaperPerpOutcome) : Bool :=
  out.status = .hedged || out.status = .fundingApplied

/-- An outcome that applied nothing. -/
def refused (status : PaperPerpStatus) (reason : PaperPerpReason)
    (position : Option PaperPerpPosition) : PaperPerpOutcome :=
  ⟨status, some reason, position, 0, 0⟩

end PaperPerpOutcome

/-- Why `maybe_hedge_spot_fill` raised. -/
inductive PaperPerpError where
  | ledger (e : LedgerError)
  /-- A validated record refused the named field. -/
  | invalidFill (field : String)
deriving DecidableEq, Repr

/-- `PaperPerpBook` (paper_perp.py:136–154); the bounds are those
`__post_init__` checks. -/
structure PaperPerpBook where
  paperFeeBps : ℚ
  paperSlippageBps : ℚ
  positions : Dict String PaperPerpPosition
  seenIds : Finset String
  fundingPrintsApplied : ℕ
  totalFeesUsd : ℚ
  paperFee_nonneg : 0 ≤ paperFeeBps
  paperSlippage_nonneg : 0 ≤ paperSlippageBps

namespace PaperPerpBook

/-- A book without hedges. -/
def fresh (paperFeeBps paperSlippageBps : ℚ) (hfee : 0 ≤ paperFeeBps)
    (hslippage : 0 ≤ paperSlippageBps) : PaperPerpBook where
  paperFeeBps := paperFeeBps
  paperSlippageBps := paperSlippageBps
  positions := Dict.empty
  seenIds := ∅
  fundingPrintsApplied := 0
  totalFeesUsd := 0
  paperFee_nonneg := hfee
  paperSlippage_nonneg := hslippage

variable (b : PaperPerpBook)

/-- The checks before anything is recorded (paper_perp.py:190–218): a refusal, or
the mid to hedge at. -/
def admits (killSwitch : Option KillSwitch) (fill : ExecutionFill) (perpMidUsd : Option ℚ)
    (decisionId : String) : Except PaperPerpOutcome ℚ :=
  if killSwitch.any KillSwitch.engaged then .error (.refused .withheld .hedgeWithheld none)
  else
    match perpMidUsd with
    | none => .error (.refused .skipped .midMissing none)
    | some mid =>
      if mid ≤ 0 then .error (.refused .skipped .midMissing none)
      else
        let asset := Text.upper fill.asset
        let clientOrderId := paperPerpClientOrderId decisionId asset
        if clientOrderId ∈ b.seenIds then
          .error (.refused .duplicate (.alreadyBooked clientOrderId) (b.positions.get? asset))
        else
          match b.positions.get? asset with
          | some position => .error (.refused .rejected (.alreadyOpen asset) (some position))
          | none => .ok mid

/-- The order a hedge is recorded under (paper_perp.py:239–249). -/
def hedgeOrder (fill : ExecutionFill) (decisionId : String) (now : Time) : ExecutionOrder where
  orderId := paperPerpClientOrderId decisionId (Text.upper fill.asset)
  decisionId := decisionId
  asset := Text.upper fill.asset
  side := hedgeSide fill.side
  requestedQuantity := fill.quantity
  state := .planned
  filledQuantity := 0
  averageFillPriceUsd := none
  lastUpdatedAt := now
  clientOrderId := some (paperPerpClientOrderId decisionId (Text.upper fill.asset))
  venueOrderId := none
  submissionAttempts := 0
  reason := none
  feesPaidUsd := 0
  feeSource := none
  requested_pos := fill.quantity_pos
  filled_nonneg := zero_nonneg
  averageFill_pos := pos_of_mem_none
  feesPaid_nonneg := zero_nonneg

/-- The decision's order under the hedge's client order id (paper_perp.py:227–231). -/
def existingHedge (l : ExecutionLedger) (decisionId clientOrderId : String) :
    Option ExecutionOrder :=
  (l.ordersForDecision decisionId).find? fun o => o.idempotencyKey = clientOrderId

/-- The fill of a hedge (paper_perp.py:250–262). -/
def hedgeFill (fill : ExecutionFill) (decisionId : String) (priceUsd : ℚ) (hp : 0 < priceUsd) :
    ExecutionFill where
  fillId := paperPerpFillId (paperPerpClientOrderId decisionId (Text.upper fill.asset))
  orderId := paperPerpClientOrderId decisionId (Text.upper fill.asset)
  asset := Text.upper fill.asset
  side := hedgeSide fill.side
  quantity := fill.quantity
  priceUsd := priceUsd
  feeUsd := fill.quantity * priceUsd * b.paperFeeBps / 10000
  feeSource := .modelled
  quantity_pos := fill.quantity_pos
  price_pos := hp
  fee_nonneg := div_nonneg
    (mul_nonneg (mul_pos fill.quantity_pos hp).le b.paperFee_nonneg) (by norm_num)

/-- The ledger with the hedge's order in it, or `none` when the order is there
and FILLED (paper_perp.py:226–249). -/
def registerHedge (fill : ExecutionFill) (decisionId : String) (now : Time)
    (l : ExecutionLedger) : Except LedgerError (Option ExecutionLedger) :=
  match existingHedge l decisionId (paperPerpClientOrderId decisionId (Text.upper fill.asset)) with
  | some o => if o.state = .filled then .ok none else .ok (some l)
  | none => (l.registerOrder (hedgeOrder fill decisionId now)).map some

/-- The position a hedge opens (paper_perp.py:264–270). -/
def hedgePosition (fill : ExecutionFill) (decisionId : String) (priceUsd : ℚ) :
    PaperPerpPosition where
  asset := Text.upper fill.asset
  side := hedgeSide fill.side
  quantity := fill.quantity
  entryPriceUsd := priceUsd
  fundingPnlUsd := 0
  clientOrderId := paperPerpClientOrderId decisionId (Text.upper fill.asset)
  quantity_pos := fill.quantity_pos

/-- The price and the fee of a hedge at a mid (paper_perp.py:222–224). -/
def hedgePrice (fill : ExecutionFill) (mid : ℚ) : ℚ :=
  adverseFillPriceUsd (hedgeSide fill.side) mid b.paperSlippageBps

/-- The id is noted and the fee counted before the ledger is asked
(paper_perp.py:220–225). -/
def noted (fill : ExecutionFill) (mid : ℚ) (decisionId : String) : PaperPerpBook :=
  { b with
    seenIds := insert (paperPerpClientOrderId decisionId (Text.upper fill.asset)) b.seenIds
    totalFeesUsd := b.totalFeesUsd
      + fill.quantity * b.hedgePrice fill mid * b.paperFeeBps / 10000 }

/-- `maybe_hedge_spot_fill` (paper_perp.py:175–276): its outcome, and the book and
the ledger it leaves. -/
def maybeHedgeSpotFill (killSwitch : Option KillSwitch) (fill : ExecutionFill)
    (perpMidUsd : Option ℚ) (decisionId : String) (now : Time) (l : ExecutionLedger) :
    Except PaperPerpError PaperPerpOutcome × PaperPerpBook × ExecutionLedger :=
  match b.admits killSwitch fill perpMidUsd decisionId with
  | .error out => (.ok out, b, l)
  | .ok mid =>
    let asset := Text.upper fill.asset
    let noted := b.noted fill mid decisionId
    match registerHedge fill decisionId now l with
    | .error e => (.error (.ledger e), noted, l)
    | .ok none =>
      (.ok (.refused .duplicate (.alreadyBooked (paperPerpClientOrderId decisionId asset))
        (b.positions.get? asset)), noted, l)
    | .ok (some registered) =>
      if hp : b.hedgePrice fill mid ≤ 0 then (.error (.invalidFill "price_usd"), noted, registered)
      else
        match registered.recordFill
            (b.hedgeFill fill decisionId (b.hedgePrice fill mid) (pos_of_check hp)) now with
        | .error e => (.error (.ledger e), noted, registered)
        | .ok (_, recorded) =>
          let position := hedgePosition fill decisionId (b.hedgePrice fill mid)
          (.ok ⟨.hedged, none, some position,
              fill.quantity * b.hedgePrice fill mid * b.paperFeeBps / 10000, 0⟩,
            { noted with positions := noted.positions.set asset position }, recorded)

/-- `apply_funding` (paper_perp.py:278–337): notional at the mark, else at the
entry price. -/
def applyFunding (killSwitch : Option KillSwitch) (settlements : List (Time × ℚ))
    (asset : String) (markUsd : Option ℚ) : PaperPerpOutcome × PaperPerpBook :=
  let key := Text.upper asset
  if killSwitch.any KillSwitch.engaged then (.refused .withheld .fundingWithheld none, b)
  else
    match b.positions.get? key with
    | none => (.refused .skipped (.noPosition key) none, b)
    | some position =>
      if settlements.isEmpty then (.refused .skipped .noSettlements (some position), b)
      else
        let price := (markUsd.filter fun mark => 0 < mark).getD position.entryPriceUsd
        let signed : ℚ := if position.side = .sell then 1 else -1
        let pnl := (settlements.map fun s => signed * s.2 * position.quantity * price).sum
        let updated := { position with fundingPnlUsd := position.fundingPnlUsd + pnl }
        (⟨.fundingApplied, none, some updated, 0, pnl⟩,
          { b with
            positions := b.positions.set key updated
            fundingPrintsApplied := b.fundingPrintsApplied + settlements.length })

/-! ## What a hedge attempt does -/

variable {b} {b' : PaperPerpBook} {killSwitch : Option KillSwitch} {fill : ExecutionFill}
  {perpMidUsd : Option ℚ} {decisionId : String} {now : Time} {l l' registered : ExecutionLedger}
  {mid : ℚ}

theorem admits_ok_iff :
    b.admits killSwitch fill perpMidUsd decisionId = .ok mid ↔
      killSwitch.any KillSwitch.engaged = false ∧ perpMidUsd = some mid ∧ 0 < mid ∧
        paperPerpClientOrderId decisionId (Text.upper fill.asset) ∉ b.seenIds ∧
        b.positions.get? (Text.upper fill.asset) = none := by
  unfold admits
  constructor
  · intro h
    split at h
    · cases h
    rename_i hkill
    split at h
    · cases h
    split at h
    · cases h
    rename_i hmid
    dsimp only at h
    split at h
    · cases h
    rename_i hseen
    split at h
    · cases h
    rename_i hopen
    cases h
    exact ⟨Bool.eq_false_iff.mpr hkill, rfl, not_le.mp hmid, hseen, hopen⟩
  · rintro ⟨hkill, rfl, hmid, hseen, hopen⟩
    rw [hkill]
    simp only [Bool.false_eq_true, if_false, if_neg (not_le.mpr hmid), if_neg hseen, hopen]

/-- A hedge's order is new, or was there before and is not FILLED. -/
theorem registerHedge_cases (h : registerHedge fill decisionId now l = .ok (some registered)) :
    (registered = l ∧ ∃ o, existingHedge l decisionId
        (paperPerpClientOrderId decisionId (Text.upper fill.asset)) = some o ∧ o.state ≠ .filled) ∨
    (registered = l.put (hedgeOrder fill decisionId now) ∧ existingHedge l decisionId
        (paperPerpClientOrderId decisionId (Text.upper fill.asset)) = none ∧
      l.orders.get? (paperPerpClientOrderId decisionId (Text.upper fill.asset)) = none) := by
  unfold registerHedge at h
  split at h
  · rename_i o ho
    split at h
    · cases h
    · rename_i hstate
      cases h
      exact .inl ⟨rfl, o, ho, hstate⟩
  · rename_i hnone
    cases hregister : l.registerOrder (hedgeOrder fill decisionId now) with
    | error e =>
      rw [hregister] at h
      cases h
    | ok l₁ =>
      rw [hregister] at h
      cases h
      obtain ⟨rfl, hget | hget⟩ := ExecutionLedger.registerOrder_ok hregister
      · exact .inr ⟨rfl, hnone, hget⟩
      · -- its own order would have been found
        exfalso
        have hmem : hedgeOrder fill decisionId now ∈ l.ordersForDecision decisionId :=
          ExecutionLedger.mem_ordersForDecision.mpr ⟨hget, rfl⟩
        refine List.find?_eq_none.mp hnone _ hmem ?_
        have hkey : (hedgeOrder fill decisionId now).idempotencyKey
            = paperPerpClientOrderId decisionId (Text.upper fill.asset) := by
          unfold ExecutionOrder.idempotencyKey hedgeOrder
          dsimp only
          split <;> rfl
        rw [hkey]
        exact decide_eq_true rfl

/-- The hedge of a fill is open in `b'` and was not in `b`. -/
structure Opened (b b' : PaperPerpBook) (fill : ExecutionFill) (decisionId : String) (mid : ℚ) :
    Prop where
  closed : b.positions.get? (Text.upper fill.asset) = none
  positions : b'.positions = b.positions.set (Text.upper fill.asset)
    (hedgePosition fill decisionId (b.hedgePrice fill mid))
  seenIds : b'.seenIds
    = insert (paperPerpClientOrderId decisionId (Text.upper fill.asset)) b.seenIds

/-- **What `maybe_hedge_spot_fill` does**: nothing; or it notes the id, without a
hedge, before or after its order is in the ledger; or it records the hedge's fill
and opens it. -/
theorem hedge_cases {r : Except PaperPerpError PaperPerpOutcome}
    (h : b.maybeHedgeSpotFill killSwitch fill perpMidUsd decisionId now l = (r, b', l')) :
    (∃ out, b.admits killSwitch fill perpMidUsd decisionId = .error out ∧ r = .ok out ∧
        b' = b ∧ l' = l) ∨
    ∃ mid, b.admits killSwitch fill perpMidUsd decisionId = .ok mid ∧
      ((b' = b.noted fill mid decisionId ∧ l' = l ∧
          ∀ registered, registerHedge fill decisionId now l ≠ .ok (some registered)) ∨
        ∃ registered, registerHedge fill decisionId now l = .ok (some registered) ∧
          ((b' = b.noted fill mid decisionId ∧ l' = registered ∧
              ∀ hp : 0 < b.hedgePrice fill mid, ∀ recorded,
                registered.recordFill (b.hedgeFill fill decisionId (b.hedgePrice fill mid) hp) now
                  ≠ .ok recorded) ∨
            ∃ (hp : 0 < b.hedgePrice fill mid) (booked : Bool),
              registered.recordFill (b.hedgeFill fill decisionId (b.hedgePrice fill mid) hp) now
                = .ok (booked, l') ∧ Opened b b' fill decisionId mid)) := by
  unfold maybeHedgeSpotFill at h
  split at h
  · rename_i out hadmits
    cases h
    exact .inl ⟨out, hadmits, rfl, rfl, rfl⟩
  rename_i mid hadmits
  refine .inr ⟨mid, hadmits, ?_⟩
  dsimp only at h
  split at h
  · rename_i e hregister
    cases h
    exact .inl ⟨rfl, rfl, fun _ hok => by cases hregister.symm.trans hok⟩
  · rename_i hregister
    cases h
    exact .inl ⟨rfl, rfl, fun _ hok => by cases hregister.symm.trans hok⟩
  rename_i registered hregister
  refine .inr ⟨registered, hregister, ?_⟩
  split at h
  · rename_i hprice
    cases h
    exact .inl ⟨rfl, rfl, fun hp => absurd hp (not_lt.mpr hprice)⟩
  rename_i hprice
  split at h
  · rename_i e hrecord
    cases h
    exact .inl ⟨rfl, rfl, fun _ _ hok => by cases hrecord.symm.trans hok⟩
  · rename_i booked recorded hrecord
    cases h
    refine .inr ⟨not_le.mp hprice, booked, hrecord, ?_⟩
    exact ⟨(admits_ok_iff.mp hadmits).2.2.2.2, rfl, rfl⟩

/-- A hedge attempt leaves the positions, or opens the one of the fill. -/
theorem positions_of_hedge {r : Except PaperPerpError PaperPerpOutcome}
    (h : b.maybeHedgeSpotFill killSwitch fill perpMidUsd decisionId now l = (r, b', l')) :
    b'.positions = b.positions ∨
      ∃ mid, b.admits killSwitch fill perpMidUsd decisionId = .ok mid ∧
        Opened b b' fill decisionId mid := by
  rcases hedge_cases h with ⟨_, -, -, rfl, -⟩ | ⟨mid, hadmits, ⟨rfl, -, -⟩ |
    ⟨_, -, ⟨rfl, -, -⟩ | ⟨_, _, -, hopened⟩⟩⟩
  · exact .inl rfl
  · exact .inl rfl
  · exact .inl rfl
  · exact .inr ⟨mid, hadmits, hopened⟩

/-- A refusal is not applied. -/
theorem applied_of_admits {out : PaperPerpOutcome}
    (h : b.admits killSwitch fill perpMidUsd decisionId = .error out) : out.applied = false := by
  unfold admits at h
  split at h
  · cases h
    rfl
  split at h
  · cases h
    rfl
  split at h
  · cases h
    rfl
  dsimp only at h
  split at h
  · cases h
    rfl
  split at h
  · cases h
    rfl
  · cases h

/-- **What a hedge attempt reports**: it applied nothing, and the positions and the
count of funding prints stay; or it applied, at the mid it was given. -/
theorem hedge_applied {r : Except PaperPerpError PaperPerpOutcome}
    (h : b.maybeHedgeSpotFill killSwitch fill perpMidUsd decisionId now l = (r, b', l')) :
    b'.fundingPrintsApplied = b.fundingPrintsApplied ∧
      ((b'.positions = b.positions ∧ ∀ out, r = .ok out → out.applied = false) ∨
        ∃ out mid, r = .ok out ∧ out.applied = true ∧ perpMidUsd = some mid ∧
          Opened b b' fill decisionId mid) := by
  unfold maybeHedgeSpotFill at h
  split at h
  · rename_i out hadmits
    cases h
    refine ⟨rfl, .inl ⟨rfl, fun out' hr => ?_⟩⟩
    rw [← Except.ok.inj hr]
    exact applied_of_admits hadmits
  rename_i mid hadmits
  obtain ⟨-, hmid, -, -, hclosed⟩ := admits_ok_iff.mp hadmits
  dsimp only at h
  split at h
  · cases h
    exact ⟨rfl, .inl ⟨rfl, fun _ hr => by cases hr⟩⟩
  · cases h
    refine ⟨rfl, .inl ⟨rfl, fun out hr => ?_⟩⟩
    rw [← Except.ok.inj hr]
    rfl
  split at h
  · cases h
    exact ⟨rfl, .inl ⟨rfl, fun _ hr => by cases hr⟩⟩
  split at h
  · cases h
    exact ⟨rfl, .inl ⟨rfl, fun _ hr => by cases hr⟩⟩
  · cases h
    exact ⟨rfl, .inr ⟨_, mid, rfl, rfl, hmid, hclosed, rfl, rfl⟩⟩

/-- Does a hedge attempt book anything? It is admitted, and its order is new, or
was there before and takes the fill. -/
def books (b : PaperPerpBook) (killSwitch : Option KillSwitch) (fill : ExecutionFill)
    (perpMidUsd : Option ℚ) (decisionId : String) (now : Time) (l : ExecutionLedger) : Bool :=
  match b.admits killSwitch fill perpMidUsd decisionId with
  | .error _ => false
  | .ok mid =>
    let clientOrderId := paperPerpClientOrderId decisionId (Text.upper fill.asset)
    match existingHedge l decisionId clientOrderId with
    | none => (l.orders.get? clientOrderId).isNone
    | some o =>
      o.state ≠ .filled &&
        if hp : 0 < b.hedgePrice fill mid then
          (l.recordFill (b.hedgeFill fill decisionId (b.hedgePrice fill mid) hp) now).isOk
        else false

/-- No position is opened or enlarged. -/
def NoLarger (b' b : PaperPerpBook) : Prop :=
  ∀ asset position, b'.positions.get? asset = some position →
    ∃ old, b.positions.get? asset = some old ∧ position.side = old.side ∧
      position.quantity ≤ old.quantity

theorem NoLarger.refl (b : PaperPerpBook) : NoLarger b b :=
  fun _ position h => ⟨position, h, rfl, le_rfl⟩

theorem NoLarger.of_positions_eq (h : b'.positions = b.positions) : NoLarger b' b := by
  intro asset position hget
  rw [h] at hget
  exact ⟨position, hget, rfl, le_rfl⟩

/-- An opened hedge is a larger position. -/
theorem Opened.larger (h : Opened b b' fill decisionId mid) : ¬NoLarger b' b := by
  intro hno
  have hget : b'.positions.get? (Text.upper fill.asset)
      = some (hedgePosition fill decisionId (b.hedgePrice fill mid)) := by
    rw [h.positions, Dict.get?_set_self]
  obtain ⟨old, hold, -⟩ := hno _ _ hget
  cases h.closed.symm.trans hold

end PaperPerpBook

namespace ExecutionLedger

/-- Every order and every fill id of `l'` was in `l`. -/
structure Within (l' l : ExecutionLedger) : Prop where
  orders : ∀ k, (l'.orders.get? k).isSome = true → (l.orders.get? k).isSome = true
  fills : l'.processedFillIds ⊆ l.processedFillIds

theorem Within.refl (l : ExecutionLedger) : Within l l := ⟨fun _ h => h, fun _ h => h⟩

/-- An order that is new keeps its key through a fill. -/
theorem isSome_recordFill {l l' : ExecutionLedger} {fill : ExecutionFill} {now : Time}
    {booked : Bool} {k : String} (h : l.recordFill fill now = .ok (booked, l'))
    (hk : (l.orders.get? k).isSome = true) : (l'.orders.get? k).isSome = true := by
  rcases recordFill_cases h with ⟨-, heq⟩ | ⟨e, heq, -⟩ | ⟨o, -, heq⟩
  · cases heq
    exact hk
  · cases heq
  · cases heq
    show (((l.put (o.withFill fill now))).orders.get? k).isSome = true
    rw [get?_put]
    split
    · rfl
    · exact hk

end ExecutionLedger

namespace PaperPerpBook

variable {b b' : PaperPerpBook} {killSwitch : Option KillSwitch} {fill : ExecutionFill}
  {perpMidUsd : Option ℚ} {decisionId : String} {now : Time} {l l' registered : ExecutionLedger}
  {mid : ℚ}

theorem registerHedge_of_existing {o : ExecutionOrder}
    (h : existingHedge l decisionId (paperPerpClientOrderId decisionId (Text.upper fill.asset))
      = some o) :
    registerHedge fill decisionId now l = if o.state = .filled then .ok none else .ok (some l) := by
  rw [registerHedge, h]

theorem registerHedge_of_new
    (h : existingHedge l decisionId (paperPerpClientOrderId decisionId (Text.upper fill.asset))
      = none)
    (hget : l.orders.get? (paperPerpClientOrderId decisionId (Text.upper fill.asset)) = none) :
    registerHedge fill decisionId now l = .ok (some (l.put (hedgeOrder fill decisionId now))) := by
  have hregister : l.registerOrder (hedgeOrder fill decisionId now)
      = .ok (l.put (hedgeOrder fill decisionId now)) := by
    unfold ExecutionLedger.registerOrder
    rw [show l.orders.get? (hedgeOrder fill decisionId now).orderId = none from hget]
  rw [registerHedge, h]
  dsimp only
  rw [hregister]
  rfl

/-- Once its new order is in the ledger, a hedge attempt has added it. -/
theorem not_within_of_new
    (hget : l.orders.get? (paperPerpClientOrderId decisionId (Text.upper fill.asset)) = none)
    (hl : (l'.orders.get? (paperPerpClientOrderId decisionId (Text.upper fill.asset))).isSome
      = true) :
    ¬ExecutionLedger.Within l' l := by
  intro hwithin
  have hold := hwithin.orders _ hl
  rw [hget] at hold
  cases hold

theorem isSome_put_hedgeOrder (l : ExecutionLedger) (fill : ExecutionFill) (decisionId : String)
    (now : Time) :
    ((l.put (hedgeOrder fill decisionId now)).orders.get?
      (paperPerpClientOrderId decisionId (Text.upper fill.asset))).isSome = true := by
  simp [ExecutionLedger.get?_put, hedgeOrder]

/-- **When a hedge attempt books nothing**: no order, no fill id, no position. -/
theorem booksNothing_iff {r : Except PaperPerpError PaperPerpOutcome}
    (h : b.maybeHedgeSpotFill killSwitch fill perpMidUsd decisionId now l = (r, b', l')) :
    (ExecutionLedger.Within l' l ∧ NoLarger b' b) ↔
      b.books killSwitch fill perpMidUsd decisionId now l = false := by
  unfold books
  rcases hedge_cases h with ⟨out, hadmits, -, rfl, rfl⟩ | ⟨mid, hadmits, hcase⟩
  · rw [hadmits]
    exact ⟨fun _ => rfl, fun _ => ⟨.refl _, .refl _⟩⟩
  rw [hadmits]
  dsimp only
  cases hexisting : existingHedge l decisionId
      (paperPerpClientOrderId decisionId (Text.upper fill.asset)) with
  | none =>
    dsimp only
    cases hget : l.orders.get? (paperPerpClientOrderId decisionId (Text.upper fill.asset)) with
    | some o =>
      -- another order has its id, and the registration raises
      rcases hcase with ⟨rfl, rfl, -⟩ | ⟨registered, hregister, -⟩
      · exact ⟨fun _ => rfl, fun _ => ⟨.refl _, .of_positions_eq rfl⟩⟩
      · rcases registerHedge_cases hregister with ⟨-, o', ho', -⟩ | ⟨-, -, hnone⟩
        · cases hexisting.symm.trans ho'
        · cases hget.symm.trans hnone
    | none =>
      -- the order is added, whatever becomes of the fill
      refine ⟨fun hnothing => ?_, fun hfalse => by cases hfalse⟩
      refine absurd hnothing.1 (not_within_of_new hget ?_)
      have hnew : registerHedge fill decisionId now l
          = .ok (some (l.put (hedgeOrder fill decisionId now))) :=
        registerHedge_of_new hexisting hget
      rcases hcase with ⟨-, -, hnone⟩ | ⟨registered, hregister, hend⟩
      · exact absurd hnew (hnone _)
      rw [hnew, Except.ok.injEq, Option.some.injEq] at hregister
      rcases hend with ⟨-, rfl, -⟩ | ⟨hp, booked, hrecord, -⟩
      · rw [← hregister]
        exact isSome_put_hedgeOrder l fill decisionId now
      · refine ExecutionLedger.isSome_recordFill hrecord ?_
        rw [← hregister]
        exact isSome_put_hedgeOrder l fill decisionId now
  | some o =>
    dsimp only
    have hstored : registerHedge fill decisionId now l
        = if o.state = .filled then .ok none else .ok (some l) :=
      registerHedge_of_existing hexisting
    by_cases hfilled : o.state = .filled
    · -- it is FILLED already
      rw [if_pos hfilled] at hstored
      rcases hcase with ⟨rfl, rfl, -⟩ | ⟨registered, hregister, -⟩
      · rw [hfilled]
        exact ⟨fun _ => rfl, fun _ => ⟨.refl _, .of_positions_eq rfl⟩⟩
      · cases hstored.symm.trans hregister
    · rw [if_neg hfilled] at hstored
      rw [decide_eq_true hfilled, Bool.true_and]
      rcases hcase with ⟨-, -, hnone⟩ | ⟨registered, hregister, hend⟩
      · exact absurd hstored (hnone _)
      cases hstored.symm.trans hregister
      rcases hend with ⟨rfl, rfl, hraised⟩ | ⟨hp, booked, hrecord, hopened⟩
      · refine ⟨fun _ => ?_, fun _ => ⟨.refl _, .of_positions_eq rfl⟩⟩
        split
        · rename_i hp
          cases hrecord : l'.recordFill
              (b.hedgeFill fill decisionId (b.hedgePrice fill mid) hp) now with
          | error e => rfl
          | ok recorded => exact absurd hrecord (hraised hp recorded)
        · rfl
      · refine ⟨fun hnothing => absurd hnothing.2 hopened.larger, fun hfalse => ?_⟩
        rw [dif_pos hp, hrecord] at hfalse
        cases hfalse

/-! ## Funding -/

/-- Under the kill switch funding is withheld. -/
theorem applyFunding_of_engaged (b : PaperPerpBook) (hkill : killSwitch.any KillSwitch.engaged = true)
    (settlements : List (Time × ℚ)) (asset : String) (markUsd : Option ℚ) :
    b.applyFunding killSwitch settlements asset markUsd
      = (.refused .withheld .fundingWithheld none, b) := by
  unfold applyFunding
  exact if_pos hkill

/-- With the switch off an open hedge takes every print of a nonempty tape. -/
theorem applyFunding_of_open (hkill : killSwitch.any KillSwitch.engaged = false) {asset : String}
    {position : PaperPerpPosition} (hget : b.positions.get? (Text.upper asset) = some position)
    (first : Time × ℚ) (rest : List (Time × ℚ)) (markUsd : Option ℚ) :
    (b.applyFunding killSwitch (first :: rest) asset markUsd).1.applied = true ∧
      (b.applyFunding killSwitch (first :: rest) asset markUsd).2.positions
        = b.positions.set (Text.upper asset)
          { position with
            fundingPnlUsd := position.fundingPnlUsd
              + ((first :: rest).map fun s => (if position.side = .sell then 1 else -1) * s.2
                  * position.quantity
                  * (markUsd.filter fun mark => 0 < mark).getD position.entryPriceUsd).sum } := by
  unfold applyFunding
  dsimp only
  rw [hkill, hget]
  exact ⟨rfl, rfl⟩

/-- The books have the same hedges, ids and prices, whatever their funding. -/
structure SameHedges (b b' : PaperPerpBook) : Prop where
  hedges : ∀ asset, (b'.positions.get? asset).map (fun p => (p.side, p.quantity))
    = (b.positions.get? asset).map fun p => (p.side, p.quantity)
  seenIds : b'.seenIds = b.seenIds
  paperFeeBps : b'.paperFeeBps = b.paperFeeBps
  paperSlippageBps : b'.paperSlippageBps = b.paperSlippageBps

theorem SameHedges.refl (b : PaperPerpBook) : SameHedges b b := ⟨fun _ => rfl, rfl, rfl, rfl⟩

theorem SameHedges.trans {c : PaperPerpBook} (h : SameHedges b b') (h' : SameHedges b' c) :
    SameHedges b c :=
  ⟨fun asset => (h'.hedges asset).trans (h.hedges asset), h'.seenIds.trans h.seenIds,
    h'.paperFeeBps.trans h.paperFeeBps, h'.paperSlippageBps.trans h.paperSlippageBps⟩

/-- **Funding** changes no hedge. -/
theorem sameHedges_applyFunding (b : PaperPerpBook) (killSwitch : Option KillSwitch)
    (settlements : List (Time × ℚ)) (asset : String) (markUsd : Option ℚ) :
    SameHedges b (b.applyFunding killSwitch settlements asset markUsd).2 := by
  unfold applyFunding
  dsimp only
  by_cases hkill : killSwitch.any KillSwitch.engaged = true
  · rw [if_pos hkill]
    exact .refl b
  rw [if_neg hkill]
  cases hposition : b.positions.get? (Text.upper asset) with
  | none => exact .refl b
  | some position =>
    dsimp only
    split
    · exact .refl b
    refine ⟨fun asset' => ?_, rfl, rfl, rfl⟩
    dsimp only
    rw [Dict.get?_set]
    split
    · rename_i hasset
      rw [hasset, hposition]
      rfl
    · rfl

theorem SameHedges.isSome (h : SameHedges b b') (asset : String) :
    (b'.positions.get? asset).isSome = (b.positions.get? asset).isSome := by
  have hsame := congrArg Option.isSome (h.hedges asset)
  rwa [Option.isSome_map, Option.isSome_map] at hsame

theorem SameHedges.get? (h : SameHedges b b') {asset : String} {position : PaperPerpPosition}
    (hget : b'.positions.get? asset = some position) :
    ∃ old, b.positions.get? asset = some old ∧ position.side = old.side ∧
      position.quantity = old.quantity := by
  have hsame := h.hedges asset
  rw [hget, Option.map_some, eq_comm, Option.map_eq_some_iff] at hsame
  obtain ⟨old, hold, hpair⟩ := hsame
  rw [Prod.mk.injEq] at hpair
  exact ⟨old, hold, hpair.1.symm, hpair.2.symm⟩

theorem SameHedges.noLarger (h : SameHedges b b') : NoLarger b' b := by
  intro asset position hget
  obtain ⟨old, hold, hside, hquantity⟩ := h.get? hget
  exact ⟨old, hold, hside, hquantity.le⟩

theorem SameHedges.symm (h : SameHedges b b') : SameHedges b' b :=
  ⟨fun asset => (h.hedges asset).symm, h.seenIds.symm, h.paperFeeBps.symm,
    h.paperSlippageBps.symm⟩

theorem NoLarger.trans {c : PaperPerpBook} (h : NoLarger c b') (h' : NoLarger b' b) :
    NoLarger c b := by
  intro asset position hget
  obtain ⟨old, hold, hside, hquantity⟩ := h asset position hget
  obtain ⟨first, hfirst, hside', hquantity'⟩ := h' asset old hold
  exact ⟨first, hfirst, hside.trans hside', hquantity.trans hquantity'⟩

theorem SameHedges.noLarger_iff {c : PaperPerpBook} (h : SameHedges b b') :
    NoLarger c b' ↔ NoLarger c b :=
  ⟨fun hc => hc.trans h.noLarger, fun hc => hc.trans h.symm.noLarger⟩

/-- What a hedge attempt books does not depend on the funding. -/
theorem SameHedges.books_eq (h : SameHedges b b') (killSwitch : Option KillSwitch)
    (fill : ExecutionFill) (perpMidUsd : Option ℚ) (decisionId : String) (now : Time)
    (l : ExecutionLedger) :
    b'.books killSwitch fill perpMidUsd decisionId now l
      = b.books killSwitch fill perpMidUsd decisionId now l := by
  have hok : ∀ mid, b'.admits killSwitch fill perpMidUsd decisionId = .ok mid ↔
      b.admits killSwitch fill perpMidUsd decisionId = .ok mid := by
    intro mid
    rw [admits_ok_iff, admits_ok_iff, h.seenIds, ← Option.not_isSome_iff_eq_none,
      ← Option.not_isSome_iff_eq_none, h.isSome]
  unfold books
  cases hadmits : b.admits killSwitch fill perpMidUsd decisionId with
  | error out =>
    cases hadmits' : b'.admits killSwitch fill perpMidUsd decisionId with
    | error out' => rfl
    | ok mid => cases hadmits.symm.trans ((hok mid).mp hadmits')
  | ok mid =>
    rw [(hok mid).mpr hadmits]
    have hprice : b'.hedgePrice fill mid = b.hedgePrice fill mid := by
      unfold hedgePrice
      rw [h.paperSlippageBps]
    have hfill : ∀ price hp, b'.hedgeFill fill decisionId price hp
        = b.hedgeFill fill decisionId price hp := by
      intro price hp
      unfold hedgeFill
      simp only [h.paperFeeBps]
    simp only [hprice, hfill]

end PaperPerpBook

end TraderStack
