import TraderStack.Execution.PaperPerp

/-!
# Hedges, all or nothing

A hedge attempt that is not refused notes its id and counts its fee before it asks
the ledger, and the ledger may hold the order already, refuse it, or refuse its fill.
Such an attempt hedges nothing, but its fee stays counted and its id stays noted.

- `allOrNothing_iff`: one attempt hedges or leaves no trace exactly when it is refused
  at once or its order takes the fill and is filled by it;
- `all_or_nothing_along_iff`: so do all attempts of a sequence, and then the fees add
  up.
-/

namespace TraderStack

open Lib

/-- The arguments of a hedge attempt. -/
structure HedgeCall where
  killSwitch : Option KillSwitch
  fill : ExecutionFill
  perpMidUsd : Option ℚ
  decisionId : String
  now : Time

/-- The order id of the attempt. -/
def HedgeCall.clientOrderId (c : HedgeCall) : String :=
  paperPerpClientOrderId c.decisionId (Text.upper c.fill.asset)

/-- A hedge book and the ledger its fills are recorded in, if there is one. -/
structure HedgeDesk where
  perp : PaperPerpBook
  ledger : Option ExecutionLedger

namespace HedgeDesk

/-- `maybe_hedge_spot_fill`, with a ledger or without (paper_perp.py:175–276). -/
def hedge (d : HedgeDesk) (c : HedgeCall) : Except PaperPerpError PaperPerpOutcome × HedgeDesk :=
  match d.ledger with
  | some l =>
    match d.perp.maybeHedgeSpotFill c.killSwitch c.fill c.perpMidUsd c.decisionId c.now l with
    | (r, perp, ledger) => (r, ⟨perp, some ledger⟩)
  | none =>
    match d.perp.admits c.killSwitch c.fill c.perpMidUsd c.decisionId with
    | .error out => (.ok out, d)
    | .ok mid =>
      let noted := d.perp.noted c.fill mid c.decisionId
      let position := PaperPerpBook.hedgePosition c.fill c.decisionId (d.perp.hedgePrice c.fill mid)
      (.ok ⟨.hedged, none, some position,
          c.fill.quantity * d.perp.hedgePrice c.fill mid * d.perp.paperFeeBps / 10000, 0⟩,
        ⟨{ noted with positions := noted.positions.set (Text.upper c.fill.asset) position }, none⟩)

/-- What an attempt leaves. -/
def step (d : HedgeDesk) (c : HedgeCall) : HedgeDesk := (d.hedge c).2

/-- The fee of a HEDGED outcome. -/
def feeOf : Except PaperPerpError PaperPerpOutcome → ℚ
  | .ok out => if out.status = .hedged then out.feeUsd else 0
  | .error _ => 0

/-- The fees of the HEDGED outcomes of a sequence of attempts. -/
def hedgedFees (d : HedgeDesk) : List HedgeCall → ℚ
  | [] => 0
  | c :: cs => feeOf (d.hedge c).1 + hedgedFees (d.step c) cs

end HedgeDesk

/-- One order under the identifier is FILLED that was not, and no other order
changes. -/
def ExecutionLedger.FillsOne (l l' : ExecutionLedger) (identifier : String) : Prop :=
  ∃ o, (o.orderId = identifier ∨ o.answersTo identifier = true) ∧
    l'.orders.get? o.orderId = some o ∧ o.state = .filled ∧
    (∀ o₀, l.orders.get? o.orderId = some o₀ → o₀.state ≠ .filled) ∧
    ∀ k, k ≠ o.orderId → l'.orders.get? k = l.orders.get? k

namespace HedgeDesk

/-- The positions, the fees and the ledger are as they were, and no id is noted: the
attempt can be made again. -/
structure Unchanged (d d' : HedgeDesk) : Prop where
  positions : d'.perp.positions = d.perp.positions
  totalFeesUsd : d'.perp.totalFeesUsd = d.perp.totalFeesUsd
  seenIds : d'.perp.seenIds = d.perp.seenIds
  ledger : d'.ledger = d.ledger

/-- One position more, its fee counted, and with a ledger one order filled for it. -/
structure Hedged (d d' : HedgeDesk) (c : HedgeCall) (out : PaperPerpOutcome) : Prop where
  position : ∃ position, out.position = some position ∧
    d.perp.positions.get? position.asset = none ∧
    d'.perp.positions = d.perp.positions.set position.asset position
  totalFeesUsd : d'.perp.totalFeesUsd = d.perp.totalFeesUsd + out.feeUsd
  ledger : ∀ l, d.ledger = some l → ∃ l', d'.ledger = some l' ∧ l.FillsOne l' c.clientOrderId

/-- **All or nothing**: a HEDGED outcome hedges, and any other leaves no trace. -/
def AllOrNothing (d : HedgeDesk) (c : HedgeCall) : Prop :=
  match (d.hedge c).1 with
  | .ok out => if out.status = .hedged then Hedged d (d.step c) c out else Unchanged d (d.step c)
  | .error _ => Unchanged d (d.step c)

/-- The order of the attempt takes its fill and is filled by it: it is new, or was
there, unfilled, with just the quantity left; and the fill id is new. -/
def TakesFill (perp : PaperPerpBook) (l : ExecutionLedger) (c : HedgeCall) (mid : ℚ) : Prop :=
  ∃ hp : 0 < perp.hedgePrice c.fill mid,
    paperPerpFillId c.clientOrderId ∉ l.processedFillIds ∧
    match PaperPerpBook.existingHedge l c.decisionId c.clientOrderId with
    | none => l.orders.get? c.clientOrderId = none
    | some o => o.state ≠ .filled ∧
      ∃ x, l.Accepts (perp.hedgeFill c.fill c.decisionId (perp.hedgePrice c.fill mid) hp) x ∧
        x.stateAfterFill c.fill.quantity = .filled ∧ x.state ≠ .filled

/-- The attempt is refused at once, or can be carried through. -/
def Settles (d : HedgeDesk) (c : HedgeCall) : Prop :=
  ∀ mid, d.perp.admits c.killSwitch c.fill c.perpMidUsd c.decisionId = .ok mid →
    ∀ l, d.ledger = some l → TakesFill d.perp l c mid

variable {d : HedgeDesk} {c : HedgeCall}

/-! ## What is noted stays noted -/

/-- An admitted attempt that notes its id leaves a trace. -/
theorem not_unchanged_of_noted {d' : HedgeDesk} {mid : ℚ}
    (hadmits : d.perp.admits c.killSwitch c.fill c.perpMidUsd c.decisionId = .ok mid)
    (hnoted : d'.perp = d.perp.noted c.fill mid c.decisionId) : ¬Unchanged d d' := by
  intro hsame
  have hnew := (PaperPerpBook.admits_ok_iff.mp hadmits).2.2.2.1
  have hseen : c.clientOrderId ∈ d'.perp.seenIds := by
    rw [hnoted]
    exact Finset.mem_insert_self _ _
  rw [hsame.seenIds] at hseen
  exact hnew hseen

/-- A refusal before anything is noted is no HEDGED outcome. -/
theorem status_of_refused {out : PaperPerpOutcome}
    (h : d.perp.admits c.killSwitch c.fill c.perpMidUsd c.decisionId = .error out) :
    out.status ≠ .hedged := by
  unfold PaperPerpBook.admits at h
  split at h
  · cases h
    exact nofun
  split at h
  · cases h
    exact nofun
  split at h
  · cases h
    exact nofun
  dsimp only at h
  split at h
  · cases h
    exact nofun
  · split at h
    · cases h
      exact nofun
    · cases h

/-! ## The order of a hedge -/

section Order

variable {perp : PaperPerpBook} {l registered : ExecutionLedger} {mid : ℚ}

/-- The order of a hedge names its client order id. -/
theorem orderId_hedgeOrder (fill : ExecutionFill) (decisionId : String) (now : Time) :
    (PaperPerpBook.hedgeOrder fill decisionId now).orderId
      = paperPerpClientOrderId decisionId (Text.upper fill.asset) := rfl

/-- A new hedge order is filled by its fill. -/
theorem accepts_hedgeOrder (hp : 0 < perp.hedgePrice c.fill mid)
    (hfresh : paperPerpFillId c.clientOrderId ∉ l.processedFillIds) :
    (l.put (PaperPerpBook.hedgeOrder c.fill c.decisionId c.now)).Accepts
        (perp.hedgeFill c.fill c.decisionId (perp.hedgePrice c.fill mid) hp)
        (PaperPerpBook.hedgeOrder c.fill c.decisionId c.now) ∧
      (PaperPerpBook.hedgeOrder c.fill c.decisionId c.now).stateAfterFill c.fill.quantity
        = .filled := by
  have hget : (l.put (PaperPerpBook.hedgeOrder c.fill c.decisionId c.now)).orders.get?
      (paperPerpClientOrderId c.decisionId (Text.upper c.fill.asset))
        = some (PaperPerpBook.hedgeOrder c.fill c.decisionId c.now) := by
    rw [ExecutionLedger.get?_put, if_pos (orderId_hedgeOrder _ _ _).symm]
  have hstate : (PaperPerpBook.hedgeOrder c.fill c.decisionId c.now).stateAfterFill c.fill.quantity
      = .filled := by
    unfold ExecutionOrder.stateAfterFill PaperPerpBook.hedgeOrder
    rw [if_pos]
    simp [fillTolerance]
  refine ⟨⟨?_, hfresh, rfl, rfl, ?_, ?_⟩, hstate⟩
  · have hid : (perp.hedgeFill c.fill c.decisionId (perp.hedgePrice c.fill mid) hp).orderId
        = paperPerpClientOrderId c.decisionId (Text.upper c.fill.asset) := rfl
    rw [hid, ExecutionLedger.findOrder, hget]
  · show (0 : ℚ) + c.fill.quantity ≤ c.fill.quantity + fillTolerance
    have htolerance : (0 : ℚ) ≤ fillTolerance := by norm_num [fillTolerance]
    linarith
  · show OrderLifecycleState.isLegalTransition .planned
      ((PaperPerpBook.hedgeOrder c.fill c.decisionId c.now).stateAfterFill c.fill.quantity) = true
    rw [hstate]
    decide

/-- `TakesFill`, as the ledger sees it. -/
theorem takesFill_iff :
    TakesFill perp l c mid ↔ ∃ (hp : 0 < perp.hedgePrice c.fill mid) (registered : ExecutionLedger)
      (o : ExecutionOrder),
      PaperPerpBook.registerHedge c.fill c.decisionId c.now l = .ok (some registered) ∧
      registered.Accepts (perp.hedgeFill c.fill c.decisionId (perp.hedgePrice c.fill mid) hp) o ∧
      o.stateAfterFill c.fill.quantity = .filled ∧
      ∀ o₀, l.orders.get? o.orderId = some o₀ → o₀.state ≠ .filled := by
  constructor
  · rintro ⟨hp, hfresh, horder⟩
    cases hexisting : PaperPerpBook.existingHedge l c.decisionId c.clientOrderId with
    | none =>
      rw [hexisting] at horder
      obtain ⟨haccepts, hstate⟩ := accepts_hedgeOrder hp hfresh
      refine ⟨hp, _, _, PaperPerpBook.registerHedge_of_new hexisting horder, haccepts, hstate, ?_⟩
      intro o₀ ho₀
      cases horder.symm.trans ho₀
    | some o =>
      rw [hexisting] at horder
      obtain ⟨hunfilled, x, haccepts, hstate, hx⟩ := horder
      have hregister : PaperPerpBook.registerHedge c.fill c.decisionId c.now l
          = if o.state = .filled then .ok none else .ok (some l) :=
        PaperPerpBook.registerHedge_of_existing hexisting
      rw [if_neg hunfilled] at hregister
      refine ⟨hp, l, x, hregister, haccepts, hstate, ?_⟩
      intro o₀ ho₀
      rw [ExecutionLedger.get?_of_findOrder haccepts.found, Option.some.injEq] at ho₀
      rwa [← ho₀]
  · rintro ⟨hp, registered, o, hregister, haccepts, hstate, hbefore⟩
    rcases PaperPerpBook.registerHedge_cases hregister with
      ⟨rfl, existing, hexisting, hunfilled⟩ | ⟨rfl, hexisting, hget⟩
    · refine ⟨hp, haccepts.fresh, ?_⟩
      rw [show PaperPerpBook.existingHedge registered c.decisionId c.clientOrderId = some existing
        from hexisting]
      exact ⟨hunfilled, o, haccepts, hstate,
        hbefore o (ExecutionLedger.get?_of_findOrder haccepts.found)⟩
    · refine ⟨hp, haccepts.fresh, ?_⟩
      rw [show PaperPerpBook.existingHedge l c.decisionId c.clientOrderId = none from hexisting]
      exact hget

/-- Registering a hedge changes no other order than the one its fill finds. -/
theorem get?_of_registerHedge
    (hregister : PaperPerpBook.registerHedge c.fill c.decisionId c.now l = .ok (some registered))
    {o : ExecutionOrder} (hfound : registered.findOrder c.clientOrderId = some o) {k : String}
    (hk : k ≠ o.orderId) : registered.orders.get? k = l.orders.get? k := by
  rcases PaperPerpBook.registerHedge_cases hregister with ⟨rfl, -⟩ | ⟨rfl, -, -⟩
  · rfl
  have hget : (l.put (PaperPerpBook.hedgeOrder c.fill c.decisionId c.now)).orders.get?
      c.clientOrderId = some (PaperPerpBook.hedgeOrder c.fill c.decisionId c.now) := by
    rw [ExecutionLedger.get?_put]
    exact if_pos rfl
  rw [ExecutionLedger.findOrder, hget, Option.some.injEq] at hfound
  rw [ExecutionLedger.get?_put, if_neg]
  rwa [hfound]

/-- **A recorded hedge fills one order** exactly when the order its fill was recorded
on was not FILLED before and is after. -/
theorem fillsOne_iff {fill : ExecutionFill} {o : ExecutionOrder} {now : Time}
    (haccepts : registered.Accepts fill o) (hid : fill.orderId = c.clientOrderId)
    (hother : ∀ k, k ≠ o.orderId → registered.orders.get? k = l.orders.get? k) :
    l.FillsOne ((registered.put (o.withFill fill now)).markProcessed fill.fillId) c.clientOrderId ↔
      o.stateAfterFill fill.quantity = .filled ∧
        ∀ o₀, l.orders.get? o.orderId = some o₀ → o₀.state ≠ .filled := by
  have hself : ((registered.put (o.withFill fill now)).markProcessed fill.fillId).orders.get?
      o.orderId = some (o.withFill fill now) := by
    rw [ExecutionLedger.orders_markProcessed, ExecutionLedger.get?_put]
    exact if_pos rfl
  have hrest : ∀ k, k ≠ o.orderId →
      ((registered.put (o.withFill fill now)).markProcessed fill.fillId).orders.get? k
        = l.orders.get? k := by
    intro k hk
    rw [ExecutionLedger.orders_markProcessed, ExecutionLedger.get?_put, ← hother k hk]
    exact if_neg hk
  constructor
  · rintro ⟨x, -, hx, hfilled, hbefore, -⟩
    by_cases hsame : x.orderId = o.orderId
    · rw [hsame, hself, Option.some.injEq] at hx
      rw [hsame] at hbefore
      rw [← hx] at hfilled
      exact ⟨hfilled, hbefore⟩
    · -- another order was FILLED already
      rw [hrest _ hsame] at hx
      exact absurd hfilled (hbefore x hx)
  · rintro ⟨hstate, hbefore⟩
    refine ⟨o.withFill fill now, ?_, hself, hstate, hbefore, hrest⟩
    have hnames := ExecutionLedger.names_of_findOrder haccepts.found
    rw [hid] at hnames
    exact hnames

/-- A hedge whose fill id was processed before fills no order. -/
theorem not_fillsOne_of_registered
    (hregister : PaperPerpBook.registerHedge c.fill c.decisionId c.now l = .ok (some registered)) :
    ¬l.FillsOne registered c.clientOrderId := by
  rintro ⟨x, -, hx, hfilled, hbefore, -⟩
  rcases PaperPerpBook.registerHedge_cases hregister with ⟨rfl, -⟩ | ⟨rfl, -, -⟩
  · exact hbefore x hx hfilled
  · rw [ExecutionLedger.get?_put] at hx
    split at hx
    · -- a new order is PLANNED
      rw [Option.some.injEq] at hx
      rw [← hx] at hfilled
      cases hfilled
    · exact hbefore x hx hfilled

end Order

/-! ## One attempt -/

/-- What an attempt with a ledger can come to: refused at once; or noted, and hedging
nothing; or recorded and hedged. -/
inductive Attempt (perp : PaperPerpBook) (l : ExecutionLedger) (c : HedgeCall) :
    Except PaperPerpError PaperPerpOutcome × PaperPerpBook × ExecutionLedger → Prop where
  | refused (out : PaperPerpOutcome)
      (hadmits : perp.admits c.killSwitch c.fill c.perpMidUsd c.decisionId = .error out) :
      Attempt perp l c (.ok out, perp, l)
  | noted (r : Except PaperPerpError PaperPerpOutcome) (ledger : ExecutionLedger) (mid : ℚ)
      (hadmits : perp.admits c.killSwitch c.fill c.perpMidUsd c.decisionId = .ok mid)
      (hr : ∀ out, r = .ok out → out.status ≠ .hedged) (hnot : ¬TakesFill perp l c mid) :
      Attempt perp l c (r, perp.noted c.fill mid c.decisionId, ledger)
  | recorded (mid : ℚ) (hp : 0 < perp.hedgePrice c.fill mid) (registered : ExecutionLedger)
      (booked : Bool) (ledger : ExecutionLedger)
      (hadmits : perp.admits c.killSwitch c.fill c.perpMidUsd c.decisionId = .ok mid)
      (hregister : PaperPerpBook.registerHedge c.fill c.decisionId c.now l = .ok (some registered))
      (hrecord : registered.recordFill
        (perp.hedgeFill c.fill c.decisionId (perp.hedgePrice c.fill mid) hp) c.now
          = .ok (booked, ledger)) :
      Attempt perp l c
        (.ok ⟨.hedged, none,
            some (PaperPerpBook.hedgePosition c.fill c.decisionId (perp.hedgePrice c.fill mid)),
            c.fill.quantity * perp.hedgePrice c.fill mid * perp.paperFeeBps / 10000, 0⟩,
          { perp.noted c.fill mid c.decisionId with
            positions := perp.positions.set (Text.upper c.fill.asset)
              (PaperPerpBook.hedgePosition c.fill c.decisionId (perp.hedgePrice c.fill mid)) },
          ledger)

theorem status_of_error (e : PaperPerpError) (out : PaperPerpOutcome)
    (h : (Except.error e : Except PaperPerpError PaperPerpOutcome) = .ok out) :
    out.status ≠ .hedged := by
  cases h

/-- **The exits of `maybe_hedge_spot_fill`**, one after the other. -/
theorem attempt (perp : PaperPerpBook) (l : ExecutionLedger) (c : HedgeCall) :
    Attempt perp l c
      (perp.maybeHedgeSpotFill c.killSwitch c.fill c.perpMidUsd c.decisionId c.now l) := by
  unfold PaperPerpBook.maybeHedgeSpotFill
  cases hadmits : perp.admits c.killSwitch c.fill c.perpMidUsd c.decisionId with
  | error out => exact .refused out hadmits
  | ok mid =>
    dsimp only
    -- an attempt that takes its fill is registered and recorded
    have htakes : TakesFill perp l c mid → ∃ hp registered recorded,
        PaperPerpBook.registerHedge c.fill c.decisionId c.now l = .ok (some registered) ∧
        registered.recordFill (perp.hedgeFill c.fill c.decisionId (perp.hedgePrice c.fill mid) hp)
          c.now = .ok recorded := by
      intro h
      obtain ⟨hp, registered, o, hregister, haccepts, -⟩ := takesFill_iff.mp h
      exact ⟨hp, registered, _, hregister, ExecutionLedger.recordFill_of_accepts haccepts⟩
    cases hregister : PaperPerpBook.registerHedge c.fill c.decisionId c.now l with
    | error e =>
      refine .noted _ l mid hadmits (status_of_error _) fun h => ?_
      obtain ⟨_, _, _, hok, _⟩ := htakes h
      cases hregister.symm.trans hok
    | ok found =>
      cases found with
      | none =>
        refine .noted _ l mid hadmits ?_ fun h => ?_
        · rintro out ⟨⟩
          exact nofun
        · obtain ⟨_, _, _, hok, _⟩ := htakes h
          cases hregister.symm.trans hok
      | some registered =>
        dsimp only
        by_cases hprice : perp.hedgePrice c.fill mid ≤ 0
        · rw [dif_pos hprice]
          have hnot : ¬TakesFill perp l c mid := by
            intro h
            obtain ⟨hp, _⟩ := htakes h
            exact absurd hp (not_lt.mpr hprice)
          exact .noted _ registered mid hadmits (status_of_error _) hnot
        rw [dif_neg hprice]
        cases hrecord : registered.recordFill (perp.hedgeFill c.fill c.decisionId
            (perp.hedgePrice c.fill mid) (not_le.mp hprice)) c.now with
        | error e =>
          have hnot : ¬TakesFill perp l c mid := by
            intro h
            obtain ⟨hp, registered', recorded, hok, hrecorded⟩ := htakes h
            rw [hregister, Except.ok.injEq, Option.some.injEq] at hok
            subst hok
            cases hrecord.symm.trans hrecorded
          exact .noted _ registered mid hadmits (status_of_error _) hnot
        | ok recorded =>
          exact .recorded mid (not_le.mp hprice) registered recorded.1 recorded.2 hadmits hregister
            hrecord

/-- **One attempt is all or nothing** exactly when it is refused at once, or made
without a ledger, or its order takes the fill. -/
theorem allOrNothing_iff : AllOrNothing d c ↔ Settles d c := by
  obtain ⟨perp, ledger⟩ := d
  cases ledger with
  | none =>
    refine iff_of_true ?_ nofun
    unfold AllOrNothing step hedge
    dsimp only
    cases hadmits : perp.admits c.killSwitch c.fill c.perpMidUsd c.decisionId with
    | error out =>
      dsimp only
      rw [if_neg (status_of_refused (d := ⟨perp, none⟩) hadmits)]
      exact ⟨rfl, rfl, rfl, rfl⟩
    | ok mid =>
      dsimp only
      rw [if_pos rfl]
      have hclosed := (PaperPerpBook.admits_ok_iff.mp hadmits).2.2.2.2
      exact ⟨⟨_, rfl, hclosed, rfl⟩, rfl, nofun⟩
  | some l =>
    have hattempt := attempt perp l c
    have hhedge : HedgeDesk.hedge ⟨perp, some l⟩ c =
        ((perp.maybeHedgeSpotFill c.killSwitch c.fill c.perpMidUsd c.decisionId c.now l).1,
          ⟨(perp.maybeHedgeSpotFill c.killSwitch c.fill c.perpMidUsd c.decisionId c.now l).2.1,
            some (perp.maybeHedgeSpotFill c.killSwitch c.fill c.perpMidUsd c.decisionId c.now l).2.2⟩) :=
      rfl
    unfold AllOrNothing step
    rw [hhedge]
    generalize perp.maybeHedgeSpotFill c.killSwitch c.fill c.perpMidUsd c.decisionId c.now l = result
      at hattempt
    cases hattempt with
    | refused out hadmits =>
      dsimp only
      rw [if_neg (status_of_refused (d := ⟨perp, some l⟩) hadmits)]
      refine iff_of_true ⟨rfl, rfl, rfl, rfl⟩ fun mid hok => ?_
      cases hadmits.symm.trans hok
    | noted r ledger mid hadmits hr hnot =>
      have hsettles : ¬Settles ⟨perp, some l⟩ c := fun h => hnot (h mid hadmits l rfl)
      have hunchanged : ¬Unchanged ⟨perp, some l⟩
          ⟨perp.noted c.fill mid c.decisionId, some ledger⟩ :=
        not_unchanged_of_noted (d := ⟨perp, some l⟩) hadmits rfl
      refine iff_of_false ?_ hsettles
      cases r with
      | error e => exact hunchanged
      | ok out =>
        dsimp only
        rw [if_neg (hr out rfl)]
        exact hunchanged
    | recorded mid hp registered booked ledger hadmits hregister hrecord =>
      dsimp only
      rw [if_pos rfl]
      have hclosed := (PaperPerpBook.admits_ok_iff.mp hadmits).2.2.2.2
      have hsettles : Settles ⟨perp, some l⟩ c ↔ TakesFill perp l c mid := by
        constructor
        · exact fun h => h mid hadmits l rfl
        · intro h mid' hmid' l' hl'
          cases hl'
          rw [hadmits, Except.ok.injEq] at hmid'
          rwa [← hmid']
      have hhedged : Hedged ⟨perp, some l⟩
          ⟨{ perp.noted c.fill mid c.decisionId with
              positions := perp.positions.set (Text.upper c.fill.asset)
                (PaperPerpBook.hedgePosition c.fill c.decisionId (perp.hedgePrice c.fill mid)) },
            some ledger⟩ c
          ⟨.hedged, none,
            some (PaperPerpBook.hedgePosition c.fill c.decisionId (perp.hedgePrice c.fill mid)),
            c.fill.quantity * perp.hedgePrice c.fill mid * perp.paperFeeBps / 10000, 0⟩ ↔
          l.FillsOne ledger c.clientOrderId := by
        constructor
        · intro h
          obtain ⟨l', hl', hfills⟩ := h.ledger l rfl
          cases hl'
          exact hfills
        · intro h
          refine ⟨⟨_, rfl, hclosed, rfl⟩, rfl, ?_⟩
          rintro l' ⟨⟩
          exact ⟨ledger, rfl, h⟩
      rw [hsettles, hhedged, takesFill_iff]
      rcases ExecutionLedger.recordFill_cases hrecord with ⟨hseen, hr⟩ | ⟨e, hr, -⟩ |
        ⟨o, haccepts, hr⟩
      · -- the fill id was processed before
        cases hr
        refine iff_of_false (not_fillsOne_of_registered hregister) ?_
        rintro ⟨hp', registered', o, hregister', haccepts, -⟩
        rw [hregister, Except.ok.injEq, Option.some.injEq] at hregister'
        subst hregister'
        exact haccepts.fresh hseen
      · cases hr
      · cases hr
        have hother := fun k (hk : k ≠ o.orderId) =>
          get?_of_registerHedge hregister haccepts.found hk
        rw [fillsOne_iff haccepts rfl hother]
        constructor
        · rintro ⟨hstate, hbefore⟩
          exact ⟨hp, registered, o, hregister, haccepts, hstate, hbefore⟩
        · rintro ⟨hp', registered', o', hregister', haccepts', hstate, hbefore⟩
          rw [hregister, Except.ok.injEq, Option.some.injEq] at hregister'
          subst hregister'
          cases haccepts.found.symm.trans haccepts'.found
          exact ⟨hstate, hbefore⟩

/-! ## A sequence of attempts -/

/-- An attempt that is all or nothing counts the fee of its outcome. -/
theorem totalFees_of_allOrNothing (h : AllOrNothing d c) :
    (d.step c).perp.totalFeesUsd = d.perp.totalFeesUsd + feeOf (d.hedge c).1 := by
  unfold AllOrNothing at h
  cases hr : (d.hedge c).1 with
  | error e =>
    rw [hr] at h
    rw [h.totalFeesUsd, feeOf, add_zero]
  | ok out =>
    rw [hr] at h
    dsimp only at h
    unfold feeOf
    dsimp only
    by_cases hhedged : out.status = .hedged
    · rw [if_pos hhedged] at h
      rw [h.totalFeesUsd, if_pos hhedged]
    · rw [if_neg hhedged] at h
      rw [h.totalFeesUsd, if_neg hhedged, add_zero]

theorem totalFees_of_along {cs : List HedgeCall} (h : Along step AllOrNothing d cs) :
    (run step d cs).perp.totalFeesUsd = d.perp.totalFeesUsd + hedgedFees d cs := by
  induction cs generalizing d with
  | nil => exact (add_zero _).symm
  | cons c cs ih =>
    rw [run_cons, ih h.2, totalFees_of_allOrNothing h.1, hedgedFees, add_assoc]

/-- **Hedging is all or nothing**, over a sequence of attempts on any book and ledger:
each hedges or leaves no trace, and the fees are those of the HEDGED outcomes, exactly
when each is refused at once or can be carried through. -/
theorem all_or_nothing_along_iff (d : HedgeDesk) (cs : List HedgeCall) :
    (Along step AllOrNothing d cs ∧
        (run step d cs).perp.totalFeesUsd = d.perp.totalFeesUsd + hedgedFees d cs) ↔
      Along step Settles d cs := by
  constructor
  · rintro ⟨h, -⟩
    exact along_imp (fun _ _ => allOrNothing_iff.mp) d cs h
  · intro h
    have hall := along_imp (fun _ _ => allOrNothing_iff.mpr) d cs h
    exact ⟨hall, totalFees_of_along hall⟩

end HedgeDesk

/-! ### A hedge after a restart -/

namespace Reloaded

/-- A spot BUY of 1 BTC. -/
def fill : ExecutionFill where
  fillId := "f1"
  orderId := "o1"
  asset := "BTC"
  side := .buy
  quantity := 1
  priceUsd := 100
  feeUsd := 0
  feeSource := .modelled
  quantity_pos := Oversold.one_pos
  price_pos := Oversold.hundred_pos
  fee_nonneg := zero_nonneg

/-- Its hedge at a mid of 100. -/
def call : HedgeCall := ⟨none, fill, some 100, "d1", 0⟩

/-- A new hedge book and a new ledger. -/
def desk : HedgeDesk :=
  ⟨.fresh 10 0 Oversold.ten_nonneg zero_nonneg, some .empty⟩

/-- The same after the hedge and a restart: the ledger was saved. -/
def reloaded : HedgeDesk := { desk with ledger := (desk.step call).ledger }

end Reloaded

namespace HedgeDesk

/-- The attempt is a DUPLICATE, and its fee is counted. -/
theorem not_all_or_nothing_along :
    ¬(Along step AllOrNothing Reloaded.reloaded [Reloaded.call] ∧
      (run step Reloaded.reloaded [Reloaded.call]).perp.totalFeesUsd
        = Reloaded.reloaded.perp.totalFeesUsd + hedgedFees Reloaded.reloaded [Reloaded.call]) :=
  fun h => absurd h.2 (by decide +kernel)

end HedgeDesk

end TraderStack
