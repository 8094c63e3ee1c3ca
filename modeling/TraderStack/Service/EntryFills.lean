import TraderStack.Service.ExitFills

/-!
# From an approved entry to its paper fill

The risk engine approves an entry for a notional within the cash above the reserve.
The paper fill turns the notional into a quantity at the adverse price, unless the
decision has an order already, whose quantity it takes as it was planned, and its fee
comes on top.

- `quantity_of_entry`: the quantity a filled entry has;
- `entry_within_approval_iff`: when it keeps to its approval and to the reserve.
-/

namespace TraderStack

open Lib

/-! ## What a filled entry costs -/

namespace PaperFillSimulator

/-- The quantity an entry is filled with: that of the decision's order, or else what
the approved notional buys (paper_fill.py:151–180). -/
def entryQuantity (sim : PaperFillSimulator) (intent : PaperOrderIntent) (midUsd : ℚ)
    (l : ExecutionLedger) : ℚ :=
  match existingOrder l intent.decisionId with
  | some o => o.requestedQuantity
  | none =>
    sim.planner.roundToLot
      (intent.notionalUsd / adverseFillPriceUsd .buy midUsd sim.paperSlippageBps)

/-- What buying a quantity takes from the cash, the fee with it. -/
def costUsd (sim : PaperFillSimulator) (quantity priceUsd : ℚ) : ℚ :=
  quantity * priceUsd + quantity * priceUsd * sim.paperFeeBps / 10000

variable {sim : PaperFillSimulator} {intent : PaperOrderIntent} {midUsd : ℚ} {now : Time}
  {a a' : Accounts} {fill : ExecutionFill} {plan : ExecutionPlan} {l' : ExecutionLedger}
  {o : ExecutionOrder}

/-- An entry has no cap. -/
theorem reduceOnlyCap_of_buy (b : PortfolioBook) (hbuy : intent.side = .buy) :
    reduceOnlyCap b intent = none := by
  unfold reduceOnlyCap
  rw [hbuy]
  cases intent.reduceOnly <;> rfl

/-- **The quantity of a filled entry.** -/
theorem quantity_of_entry (h : PreparedFill sim intent midUsd now a fill plan l' o)
    (hbuy : intent.side = .buy) : fill.quantity = sim.entryQuantity intent midUsd a.ledger := by
  have hcap := reduceOnlyCap_of_buy a.book hbuy
  rw [h.quantity, hcap]
  unfold entryQuantity
  rcases h.order with ⟨hexisting, -, -⟩ | ⟨hnone, ho, -⟩
  · rw [hexisting]
    rfl
  · rw [hnone, ho]
    have hplan := ExecutionPlanner.quantity_of_plan h.planned
    rw [hcap, Option.elim_none, hbuy] at hplan
    exact hplan

/-- A filled entry takes its cost from the cash. -/
theorem cash_of_entry (h : PreparedFill sim intent midUsd now a fill plan l' o)
    (hbuy : intent.side = .buy)
    (happlied : a.book.applyFill fill.asset fill.side fill.quantity fill.priceUsd fill.feeUsd now
      none = (.ok (), a'.book)) :
    a'.book.cashUsd = a.book.cashUsd - sim.costUsd fill.quantity fill.priceUsd := by
  rcases PortfolioBook.applyFill_cases happlied with
    ⟨e, he, -⟩ | ⟨_, _, _, -, -, hfilled⟩ | ⟨_, _, -, -, -, hsell, -⟩
  · cases he
  · rw [hfilled.cashUsd, h.fee, costUsd, ← sub_eq_add_neg]
  · cases (h.side.trans hbuy).symm.trans hsell

end PaperFillSimulator

/-! ## The approval and the reserve -/

/-- An approved entry leaves room above the reserve, in cash the book has. -/
theorem cash_of_approved {e : RiskEngine} {proposal : TradeProposal} {b b' : PortfolioBook}
    {portfolio : PortfolioSnapshot} {features : Option AssetFeatureVector} {snapshotAt now : Time}
    {reduceOnly : Bool} {intent : PaperOrderIntent}
    (hsnapshot : b.snapshot snapshotAt = (.ok portfolio, b'))
    (happroved : paperOrderOf proposal (e.evaluate proposal portfolio features now) reduceOnly
      = some intent)
    (hbuy : intent.side = .buy) : portfolio.cashUsd = b'.cashUsd := by
  unfold paperOrderOf at happroved
  split at happroved
  · rename_i hallowed
    cases happroved
    rcases e.evaluate_cases proposal portfolio features now with
      ⟨hreject, -⟩ | ⟨-, hblocked, -⟩
    · exact absurd hreject hallowed.1
    have hadding : RiskEngine.riskReducing proposal portfolio = false := by
      rw [Bool.eq_false_iff, Ne, RiskEngine.riskReducing_iff]
      rintro ⟨hsell, -⟩
      cases hbuy.symm.trans hsell
    obtain ⟨-, -, hroom⟩ := RiskEngine.rooms_pos hadding hblocked
    -- the cash is above the reserve, so it is not the zero of a negative balance
    have hreserve : 0 ≤ portfolio.navUsd * e.settings.minCashReservePct :=
      mul_nonneg portfolio.nav_pos.le e.settings.minCashReserve_bounds.1
    have hcash : 0 < portfolio.cashUsd := lt_of_le_of_lt hreserve (sub_pos.mp hroom)
    obtain ⟨-, ⟨herror, -⟩ | ⟨s, hs, -, hshown, -⟩⟩ := PortfolioBook.snapshot_cases hsnapshot
    · cases herror
    · cases hs
      rw [hshown] at hcash ⊢
      exact max_eq_right (le_of_lt ((lt_max_iff.mp hcash).resolve_left (lt_irrefl 0)))
  · cases happroved

/-- A booked entry costs no more than was approved, and leaves the reserve. -/
structure WithinApproval (e : RiskEngine) (portfolio : PortfolioSnapshot)
    (intent : PaperOrderIntent) (fill : ExecutionFill) (b : PortfolioBook) : Prop where
  notional : fill.quantity * fill.priceUsd ≤ intent.notionalUsd
  reserve : portfolio.navUsd * e.settings.minCashReservePct ≤ b.cashUsd

/-- The entry fits, at the price it will be filled at: an order the decision has was
planned for no more than the approval buys, and the cash above the reserve pays for
the fee as well. -/
structure EntryFits (sim : PaperFillSimulator) (e : RiskEngine) (portfolio : PortfolioSnapshot)
    (intent : PaperOrderIntent) (midUsd : ℚ) (l : ExecutionLedger) : Prop where
  planned : ∀ o, PaperFillSimulator.existingOrder l intent.decisionId = some o →
    o.requestedQuantity
      ≤ intent.notionalUsd / adverseFillPriceUsd .buy midUsd sim.paperSlippageBps
  fee : sim.costUsd (sim.entryQuantity intent midUsd l)
      (adverseFillPriceUsd .buy midUsd sim.paperSlippageBps) ≤ e.cashRoom portfolio

/-- **When a booked entry keeps to its approval.** A FILLED entry costs no more than
its approved notional and leaves the cash reserve of its snapshot exactly when an
order its decision had was planned for no more than the approval buys at the fill
price, and the cash above the reserve covers the fee too. -/
theorem entry_within_approval_iff {e : RiskEngine} {proposal : TradeProposal}
    {b b' : PortfolioBook} {portfolio : PortfolioSnapshot} {features : Option AssetFeatureVector}
    {snapshotAt now fillAt : Time} {reduceOnly : Bool} {intent : PaperOrderIntent}
    {sim : PaperFillSimulator} {midUsd : ℚ} {l : ExecutionLedger} {out : PaperFillOutcome}
    {fill : ExecutionFill} {a' : Accounts}
    (hsnapshot : b.snapshot snapshotAt = (.ok portfolio, b'))
    (happroved : paperOrderOf proposal (e.evaluate proposal portfolio features now) reduceOnly
      = some intent)
    (hbuy : intent.side = .buy) (happly : sim.apply intent midUsd fillAt ⟨l, b'⟩ = (.ok out, a'))
    (hfilled : out.status = .filled) (hfill : out.fill = some fill) :
    WithinApproval e portfolio intent fill a'.book ↔ EntryFits sim e portfolio intent midUsd l := by
  obtain ⟨fill', plan, l', o, hsome, hprepared, happlied⟩ :=
    PaperFillSimulator.filled_spec happly hfilled
  cases hfill.symm.trans hsome
  have hquantity := PaperFillSimulator.quantity_of_entry hprepared hbuy
  have hcash := PaperFillSimulator.cash_of_entry hprepared hbuy happlied
  have hprice : fill.priceUsd = adverseFillPriceUsd .buy midUsd sim.paperSlippageBps := by
    rw [hprepared.price, hbuy]
  have hpos : 0 < adverseFillPriceUsd .buy midUsd sim.paperSlippageBps := hprice ▸ fill.price_pos
  dsimp only at hquantity hcash
  have hnotional : fill.quantity * fill.priceUsd ≤ intent.notionalUsd ↔
      ∀ o, PaperFillSimulator.existingOrder l intent.decisionId = some o →
        o.requestedQuantity
          ≤ intent.notionalUsd / adverseFillPriceUsd .buy midUsd sim.paperSlippageBps := by
    rw [hquantity, hprice, ← le_div_iff₀ hpos]
    unfold PaperFillSimulator.entryQuantity
    cases PaperFillSimulator.existingOrder l intent.decisionId with
    | some o =>
      constructor
      · rintro hle _ ⟨⟩
        exact hle
      · exact fun hle => hle o rfl
    | none =>
      exact ⟨fun _ o ho => (Option.some_ne_none o ho.symm).elim,
        fun _ => sim.planner.roundToLot_le _⟩
  have hreserve : portfolio.navUsd * e.settings.minCashReservePct ≤ a'.book.cashUsd ↔
      sim.costUsd (sim.entryQuantity intent midUsd l)
        (adverseFillPriceUsd .buy midUsd sim.paperSlippageBps) ≤ e.cashRoom portfolio := by
    rw [hcash, ← cash_of_approved hsnapshot happroved hbuy, hquantity, hprice, RiskEngine.cashRoom]
    constructor
    · intro h
      linarith
    · intro h
      linarith
  constructor
  · exact fun h => ⟨hnotional.mp h.notional, hreserve.mp h.reserve⟩
  · exact fun h => ⟨hnotional.mpr h.planned, hreserve.mpr h.fee⟩

/-! ### An order planned at the ask -/

namespace Reserve

theorem whole_bounds : (0 : ℚ) < 1 ∧ (1 : ℚ) ≤ 1 := ⟨one_pos, le_rfl⟩

/-- All of the NAV may be held in one asset, but for the reserve of 5 %. -/
def engine : RiskEngine :=
  ⟨{ Settings.default with
      killSwitch := false
      maxPositionPct := 1
      maxGrossExposurePct := 1
      maxPosition_bounds := whole_bounds
      maxGrossExposure_bounds := whole_bounds }, none, none⟩

/-- A book of 1000 in cash. -/
def book : PortfolioBook := .fresh 1000 Oversold.thousand_pos

/-- An entry into BTC. -/
def entry (requested : ℚ) (hrequested : 0 < requested) : TradeProposal :=
  { Residual.sale requested hrequested with side := .buy }

/-- The order the engine approves for an entry, if it does. -/
def entryOrder (proposal : TradeProposal) : Option PaperOrderIntent :=
  (book.snapshot 0).1.toOption.bind fun portfolio =>
    paperOrderOf proposal (engine.evaluate proposal portfolio none 0) false

/-- The ledger of the submitter that planned the order at the ask of 100. -/
def planned (intent : PaperOrderIntent) : ExecutionLedger :=
  match Residual.sim.planner.plan intent 100 100 none with
  | .ok plan => ExecutionLedger.empty.put (PaperFillSimulator.plannedOrder plan 0)
  | .error _ => .empty

/-- An approved entry filled on a ledger at a mid: the snapshot, the order, the fill and
the book it leaves. -/
def bought (proposal : TradeProposal) (ledger : PaperOrderIntent → ExecutionLedger) (mid : ℚ) :
    Option (PortfolioSnapshot × PaperOrderIntent × ExecutionFill × PortfolioBook) :=
  match (book.snapshot 0).1, entryOrder proposal with
  | .ok portfolio, some intent =>
    match Residual.sim.apply intent mid 0 ⟨ledger intent, (book.snapshot 0).2⟩ with
    | (.ok out, a) =>
      if out.status = .filled then out.fill.map fun fill => (portfolio, intent, fill, a.book)
      else none
    | (.error _, _) => none
  | _, _ => none

theorem bought_spec {proposal : TradeProposal} {ledger : PaperOrderIntent → ExecutionLedger}
    {mid : ℚ} {portfolio : PortfolioSnapshot} {intent : PaperOrderIntent} {fill : ExecutionFill}
    {b : PortfolioBook} (h : bought proposal ledger mid = some (portfolio, intent, fill, b)) :
    ∃ out a, book.snapshot 0 = (.ok portfolio, (book.snapshot 0).2) ∧
      paperOrderOf proposal (engine.evaluate proposal portfolio none 0) false = some intent ∧
      Residual.sim.apply intent mid 0 ⟨ledger intent, (book.snapshot 0).2⟩ = (.ok out, a) ∧
      out.status = .filled ∧ out.fill = some fill ∧ a.book = b := by
  unfold bought at h
  split at h
  · rename_i portfolio' intent' hportfolio hintent
    split at h
    · rename_i out a happly
      split at h
      · rename_i hstatus
        obtain ⟨fill', hfill, heq⟩ := Option.map_eq_some_iff.mp h
        cases heq
        unfold entryOrder at hintent
        rw [hportfolio] at hintent
        exact ⟨out, a, Prod.ext hportfolio rfl, hintent, happly, hstatus, hfill, rfl⟩
      · cases h
    · cases h
  · cases h

end Reserve

/-- An entry of a tenth of the cash keeps to its approval. -/
theorem entry_within_approval_iff_tenth :
    ∃ portfolio intent fill b,
      Reserve.bought (Reserve.entry 100 Oversold.hundred_pos) (fun _ => .empty) 100
        = some (portfolio, intent, fill, b) ∧
      WithinApproval Reserve.engine portfolio intent fill b := by
  have hsome : (Reserve.bought (Reserve.entry 100 Oversold.hundred_pos) (fun _ => .empty)
      100).map (fun x => (x.2.1.side, decide (Residual.sim.costUsd
        (Residual.sim.entryQuantity x.2.1 100 .empty)
        (adverseFillPriceUsd .buy 100 Residual.sim.paperSlippageBps)
          ≤ Reserve.engine.cashRoom x.1))) = some (.buy, true) := by decide +kernel
  obtain ⟨⟨portfolio, intent, fill, b⟩, hbought, hfits⟩ := Option.map_eq_some_iff.mp hsome
  rw [Prod.mk.injEq, decide_eq_true_eq] at hfits
  obtain ⟨out, a, hsnapshot, happroved, happly, hfilled, hfill, rfl⟩ := Reserve.bought_spec hbought
  have hnone : PaperFillSimulator.existingOrder .empty intent.decisionId = none := rfl
  refine ⟨portfolio, intent, fill, a.book, hbought, ?_⟩
  exact (entry_within_approval_iff hsnapshot happroved hfits.1 happly hfilled hfill).mpr
    ⟨fun o ho => (Option.some_ne_none o (ho.symm.trans hnone)).elim, hfits.2⟩

/-- The order planned at the ask of 100 is filled at 100.04, and the reserve of 50 pays
for the difference and for the fee. -/
theorem not_entry_within_approval :
    ∃ portfolio intent fill b,
      Reserve.bought (Reserve.entry 1000 Oversold.thousand_pos) Reserve.planned (9999 / 100)
        = some (portfolio, intent, fill, b) ∧
      intent.side = .buy ∧ intent.notionalUsd < fill.quantity * fill.priceUsd ∧
      b.cashUsd < portfolio.navUsd * Reserve.engine.settings.minCashReservePct ∧
      ¬WithinApproval Reserve.engine portfolio intent fill b := by
  have hsome : (Reserve.bought (Reserve.entry 1000 Oversold.thousand_pos) Reserve.planned
      (9999 / 100)).map (fun x => (x.2.1.side,
        decide (x.2.1.notionalUsd < x.2.2.1.quantity * x.2.2.1.priceUsd),
        decide (x.2.2.2.cashUsd < x.1.navUsd * Reserve.engine.settings.minCashReservePct)))
      = some (.buy, true, true) := by decide +kernel
  obtain ⟨⟨portfolio, intent, fill, b⟩, hbought, hbroken⟩ := Option.map_eq_some_iff.mp hsome
  rw [Prod.mk.injEq, Prod.mk.injEq, decide_eq_true_eq, decide_eq_true_eq] at hbroken
  obtain ⟨hside, hnotional, hcash⟩ := hbroken
  refine ⟨portfolio, intent, fill, b, hbought, hside, hnotional, hcash, fun hwithin => ?_⟩
  exact absurd hwithin.notional (not_le.mpr hnotional)

end TraderStack
