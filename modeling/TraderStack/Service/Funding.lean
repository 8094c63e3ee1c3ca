import TraderStack.Lib.Cursor
import TraderStack.Service.ClosedGates

/-!
# Funding of the open hedges (service.py, paper_perp.py, paper_perp_feed.py)

The hedge book adds up the funding of an open hedge, the service keeps the time of
the last print it applied, and the feed filters what the venue published by that
time. A fetch may fail, the tape may be empty, the kill switch may withhold it, a
mark may be missing, and the venue's pages may overlap.

The service reads the venue's prints through a cursor in the sense of `Lib.Cursor`:

- `FundingRecord`: a process with the instants its hedges were quoted at, the
  prints it credited, and the tapes it fetched with the switch off;
- `Accounted`: each open hedge has kept up with its venue;
- `funding_credited_once`: after every run each print of a fetched tape is credited
  once, and the hedge's funding is the sum of its credits.
-/

namespace TraderStack

open Lib

/-! ## The feed -/

/-- `_finish` (edge_series.py:235–262): one value a timestamp, in time order. -/
def finishSeries (points : List (Time × ℚ)) : List (Time × ℚ) :=
  (Dict.ofList points).entries.insertionSort fun s t => s.1 ≤ t.1

/-- `settlements_after` (paper_perp_feed.py:309–316). -/
def settlementsAfter (settlements : List (Time × ℚ)) (since : Time) : List (Time × ℚ) :=
  settlements.filter fun s => since < s.1

/-- `fetch_funding_since` (paper_perp_feed.py:153–238): the venue's rows, `none`
where the pull failed. -/
def fetchFundingSince (rows : Option (List (Time × ℚ))) (since : Time) : List (Time × ℚ) :=
  match rows with
  | none => []
  | some points => settlementsAfter (finishSeries points) since

/-- A venue's prints, oldest first. -/
abbrev Prints := List (Time × ℚ)

theorem mem_of_mem_finishSeries {points : List (Time × ℚ)} {s : Time × ℚ}
    (h : s ∈ finishSeries points) : s ∈ points := by
  unfold finishSeries at h
  rw [List.mem_insertionSort] at h
  exact Dict.mem_of_get?_ofList (Dict.mem_entries_iff.mp h)

theorem nodup_finishSeries (points : List (Time × ℚ)) : (finishSeries points).Nodup := by
  have hentries : (Dict.ofList points).entries.Nodup := (Dict.ofList points).nodup.of_map
  exact (List.perm_insertionSort _ _).nodup_iff.mpr hentries

/-- Every timestamp keeps a row. -/
theorem exists_mem_finishSeries {points : List (Time × ℚ)} {s : Time × ℚ} (h : s ∈ points) :
    ∃ t ∈ finishSeries points, t.1 = s.1 := by
  obtain ⟨value, hget⟩ := Dict.exists_get?_ofList h
  refine ⟨(s.1, value), ?_, rfl⟩
  unfold finishSeries
  rw [List.mem_insertionSort]
  exact Dict.mem_entries_iff.mpr hget

/-- **The tape of a fetch answers the poll**: rows that repeat published prints, and
miss none that is visible and newer than the cursor, are read as each of these once. -/
theorem answers_fetch {log points visible : Prints} {since : Time}
    (hlog : Increasing Prod.fst log) (hvisible : visible <+: log)
    (hpoints : ∀ s ∈ points, s ∈ visible) (hnew : ∀ s ∈ visible, since < s.1 → s ∈ points) :
    Answers Prod.fst log since (fetchFundingSince (some points) since) where
  nodup := (nodup_finishSeries points).filter _
  visible := by
    refine ⟨visible, hvisible, fun s => ?_⟩
    show s ∈ settlementsAfter (finishSeries points) since ↔ _
    rw [settlementsAfter, List.mem_filter, decide_eq_true_eq]
    constructor
    · rintro ⟨hs, hsince⟩
      exact ⟨hpoints s (mem_of_mem_finishSeries hs), hsince⟩
    · rintro ⟨hs, hsince⟩
      -- the row kept for its timestamp is the print itself
      obtain ⟨t, ht, hkey⟩ := exists_mem_finishSeries (hnew s hs hsince)
      have hpublished : t ∈ log := hvisible.subset (hpoints t (mem_of_mem_finishSeries ht))
      have heq : t = s := hlog.eq_of_key hpublished (hvisible.subset hs) hkey
      exact ⟨heq ▸ ht, hsince⟩

/-! ## A cycle up to its funding -/

namespace HedgedPaperService

/-- A cycle up to its funding step (service.py:226–246). -/
def toFunding (svc : HedgedPaperService) (input : HedgedCycleInput) :
    HedgedStep (MarketTick × PipelineResult) := do
  Proc.modify fun h => { h with cycle := h.cycle + 1 }
  let (tick, r) ← svc.decideAndSubmit input
  svc.applyPaperFill input tick r
  return (tick, r)

/-- A cycle from its funding step on (service.py:247–307). -/
def fromFunding (svc : HedgedPaperService) (input : HedgedCycleInput)
    (decided : MarketTick × PipelineResult) : HedgedStep PUnit := do
  svc.applyPerpFunding input
  svc.openCarryHedge input
  onWorld (ContinuousPaperService.markTick decided.1 decided.2)
  closeCycle input

theorem cycle_eq (svc : HedgedPaperService) (input : HedgedCycleInput) :
    svc.cycle input = svc.toFunding input >>= svc.fromFunding input := by
  unfold toFunding
  rw [Proc.bind_assoc]
  refine congrArg _ (funext fun _ => ?_)
  rw [Proc.bind_assoc]
  refine congrArg _ (funext fun ⟨tick, r⟩ => ?_)
  dsimp only
  rw [Proc.bind_assoc]
  rfl

/-- The world a cycle's funding step finds, if the cycle gets there. -/
def atFunding (svc : HedgedPaperService) (input : HedgedCycleInput) (h : HedgedWorld) :
    Option HedgedWorld :=
  match (svc.toFunding input h).exit with
  | .ok _ => some (svc.toFunding input h).world
  | .error _ => none

/-- The world a cycle's funding step leaves. -/
def afterFunding (svc : HedgedPaperService) (input : HedgedCycleInput) (h : HedgedWorld) :
    HedgedWorld :=
  if svc.perpHedge then funded input h else h

/-- The hedge a funding step fetches prints for, with its venue and its cursor
(service.py:622–634). -/
def pull (svc : HedgedPaperService) (input : HedgedCycleInput) (h : HedgedWorld) :
    Option (PaperPerpPosition × String × Time) :=
  let asset := symbolAsset input.symbol
  if svc.perpHedge then
    match h.perp.positions.get? asset, h.perpVenue.get? asset, h.perpLastFundingAt.get? asset with
    | some position, some venue, some since => some (position, venue, since)
    | _, _, _ => none
  else none

end HedgedPaperService

/-- The mark of a funding step: the mid of the hedge's own venue
(service.py:647–653). -/
def HedgedCycleInput.fundingMark (input : HedgedCycleInput) (venue : String) : Option ℚ :=
  (input.fundingQuote.filter fun quote => quote.venue = venue).map PerpQuote.midUsd

/-- A print credited to the hedge of an asset, and the price it was valued at. -/
structure Credit where
  asset : String
  settlement : Time × ℚ
  priceUsd : ℚ

/-- What a credit moves: a short perp receives a positive rate, a long one pays it. -/
def Credit.amountUsd (c : Credit) (position : PaperPerpPosition) : ℚ :=
  (if position.side = .sell then 1 else -1) * c.settlement.2 * position.quantity * c.priceUsd

namespace HedgedPaperService

variable (svc : HedgedPaperService)

/-- The tape of a funding step that fetches one with the switch off. -/
def fetchedBy (input : HedgedCycleInput) (h : HedgedWorld) : List (String × Time × ℚ) :=
  match svc.pull input h, input.fundingTape with
  | some _, some tape =>
    if input.killSwitch.any KillSwitch.engaged then []
    else tape.map fun s => (symbolAsset input.symbol, s)
  | _, _ => []

/-- The prints the hedge book is given and applies, each with its price: the
venue's mid if it was fetched, else the hedge's entry price. -/
def creditedBy (input : HedgedCycleInput) (h : HedgedWorld) : List Credit :=
  let asset := symbolAsset input.symbol
  match svc.pull input h, input.fundingTape with
  | some (position, venue, _), some tape =>
    let mark := input.fundingMark venue
    if (h.perp.applyFunding input.killSwitch tape asset mark).1.applied then
      tape.map fun s => ⟨asset, s, mark.getD position.entryPriceUsd⟩
    else []
  | _, _ => []

end HedgedPaperService

/-! ## A process and what it credited -/

/-- A process, the instant the quote of each open hedge was observed at, the prints
of the tapes fetched with the switch off, and the prints credited. -/
structure FundingRecord where
  world : HedgedWorld
  openedAt : String → Option Time
  fetched : List (String × Time × ℚ)
  credits : List Credit

namespace FundingRecord

/-- The hedges open in `h` and not before were opened at the quote. -/
def hedged (g : FundingRecord) (quote : Option PerpQuote) (h : HedgedWorld) : FundingRecord where
  world := h
  openedAt := fun asset =>
    if (g.world.perp.positions.get? asset).isNone && (h.perp.positions.get? asset).isSome then
      quote.map PerpQuote.observedAt
    else g.openedAt asset
  fetched := g.fetched
  credits := g.credits

/-- The funding step of a cycle. -/
def funded (g : FundingRecord) (svc : HedgedPaperService) (input : HedgedCycleInput) :
    FundingRecord where
  world := svc.afterFunding input g.world
  openedAt := g.openedAt
  fetched := g.fetched ++ svc.fetchedBy input g.world
  credits := g.credits ++ svc.creditedBy input g.world

/-- The credits of an asset's hedge. -/
def creditsOf (g : FundingRecord) (asset : String) : List Credit :=
  g.credits.filter fun c => c.asset = asset

/-- The prints credited to an asset's hedge. -/
def creditedPrints (g : FundingRecord) (asset : String) : Prints :=
  (g.creditsOf asset).map Credit.settlement

end FundingRecord

namespace HedgedPaperService

variable (svc : HedgedPaperService)

/-- An event of the process, with what it credited: a cycle hedges its spot fill,
applies its funding, and opens its carry hedge. -/
def recordStep (g : FundingRecord) (e : Event) : FundingRecord :=
  match e with
  | .reconcile _ _ => { g with world := svc.step g.world e }
  | .cycle input _ =>
    match svc.atFunding input g.world with
    | none => { g with world := svc.step g.world e }
    | some h =>
      ((g.hedged input.hedgeQuote h).funded svc input).hedged input.carryQuote (svc.step g.world e)

/-- A process before its first cycle. -/
def recordStart : FundingRecord := ⟨svc.start, fun _ => none, [], []⟩

/-- What the feed promises a cycle's funding step: its mids are positive
(paper_perp_feed.py:254–255), and its tape is that of a fetch whose rows are visible
prints of the hedge's venue and miss none of them newer than the cursor. Prints
become visible in time order. -/
structure Served (prints : String → String → Prints) (input : HedgedCycleInput)
    (h : HedgedWorld) : Prop where
  quote : ∀ quote, input.fundingQuote = some quote → 0 < quote.midUsd
  tape : ∀ position venue since tape, svc.pull input h = some (position, venue, since) →
    input.fundingTape = some tape →
      ∃ rows, tape = fetchFundingSince rows since ∧
        ∀ points, rows = some points →
          ∃ visible, visible <+: prints venue (symbolAsset input.symbol) ∧
            (∀ s ∈ points, s ∈ visible) ∧ ∀ s ∈ visible, since < s.1 → s ∈ points

/-- The event happens in the one process, and the feed serves its funding step. -/
def ServedStep (prints : String → String → Prints) (g : FundingRecord) : Event → Prop
  | .reconcile _ crash => crash = none
  | .cycle input crash =>
    crash = none ∧ ∀ h, svc.atFunding input g.world = some h → svc.Served prints input h

end HedgedPaperService

/-! ## What the steps of a cycle do to the hedges -/

/-- The hedges, their venues and their cursors are as they were. -/
structure HedgedWorld.SamePerp (h h' : HedgedWorld) : Prop where
  positions : h'.perp.positions = h.perp.positions
  venue : h'.perpVenue = h.perpVenue
  cursor : h'.perpLastFundingAt = h.perpLastFundingAt

/-- Nothing changed, or one hedge was opened at the quote. -/
inductive HedgedWorld.HedgedAt (quote : Option PerpQuote) (h h' : HedgedWorld) : Prop
  | same (same : HedgedWorld.SamePerp h h')
  | opened (asset : String) (q : PerpQuote) (position : PaperPerpPosition) (quoted : quote = some q)
      (closed : h.perp.positions.get? asset = none) (unfunded : position.fundingPnlUsd = 0)
      (positions : h'.perp.positions = h.perp.positions.set asset position)
      (venue : h'.perpVenue = h.perpVenue.set asset q.venue)
      (cursor : h'.perpLastFundingAt = h.perpLastFundingAt.set asset q.observedAt)

namespace HedgedWorld

variable {quote : Option PerpQuote} {h₀ h h' : HedgedWorld}

theorem SamePerp.refl (h : HedgedWorld) : SamePerp h h := ⟨rfl, rfl, rfl⟩

theorem SamePerp.trans (hs : SamePerp h₀ h) (hs' : SamePerp h h') : SamePerp h₀ h' :=
  ⟨hs'.positions.trans hs.positions, hs'.venue.trans hs.venue, hs'.cursor.trans hs.cursor⟩

theorem HedgedAt.trans_same (hh : HedgedAt quote h₀ h) (hs : SamePerp h h') :
    HedgedAt quote h₀ h' := by
  cases hh with
  | same same => exact .same (same.trans hs)
  | opened asset q position quoted closed unfunded positions venue cursor =>
    exact .opened asset q position quoted closed unfunded (hs.positions.trans positions)
      (hs.venue.trans venue) (hs.cursor.trans cursor)

theorem HedgedAt.of_same (hs : SamePerp h₀ h) (hh : HedgedAt quote h h') :
    HedgedAt quote h₀ h' := by
  cases hh with
  | same same => exact .same (hs.trans same)
  | opened asset q position quoted closed unfunded positions venue cursor =>
    exact .opened asset q position quoted (hs.positions ▸ closed) unfunded
      (hs.positions ▸ positions) (hs.venue ▸ venue) (hs.cursor ▸ cursor)

end HedgedWorld

namespace HedgedPaperService

open HedgedWorld

variable {svc : HedgedPaperService} {input : HedgedCycleInput} {h₀ h : HedgedWorld}
  {quote : Option PerpQuote}

theorem samePerp_onWorld {α : Type} (p : Service α) : Proc.Keeps (SamePerp h₀) (onWorld p) :=
  keeps_onWorld (fun _ _ hh => ⟨hh.positions, hh.venue, hh.cursor⟩) p

/-- **A hedge attempt** opens one hedge, and notes its quote, or changes none. -/
theorem hedgedAt_openHedge (input : HedgedCycleInput) (fill : ExecutionFill)
    (quote : Option PerpQuote) (decisionId : String) :
    Proc.Triple (SamePerp h₀) (openHedge input fill quote decisionId)
      (fun _ => HedgedAt quote h₀) (fun _ => SamePerp h₀) (fun _ => True) := by
  refine Proc.Triple.exec fun h hh => ?_
  rcases hresult : h.perp.maybeHedgeSpotFill input.killSwitch fill (quote.map PerpQuote.midUsd)
    decisionId input.now h.world.ledger with ⟨r, perp, ledger⟩
  obtain ⟨-, ⟨hpositions, hrefused⟩ | ⟨out, mid, rfl, happlied, hmid, hopened⟩⟩ :=
    PaperPerpBook.hedge_applied hresult
  · -- nothing applied, nothing noted
    have hsame : SamePerp h₀ (h.withHedge perp ledger) :=
      hh.trans ⟨hpositions, rfl, rfl⟩
    cases r with
    | error e => exact hsame
    | ok out =>
      dsimp only
      rw [hrefused out rfl]
      cases quote with
      | none => exact .same hsame
      | some q => exact .same hsame
  · obtain ⟨q, rfl, -⟩ := Option.map_eq_some_iff.mp hmid
    dsimp only
    rw [happlied]
    exact .of_same hh (.opened _ q _ rfl hopened.closed rfl hopened.positions rfl rfl)

theorem hedgedAt_applyPaperFill (tick : MarketTick) (r : PipelineResult) :
    Proc.Triple (SamePerp h₀) (svc.applyPaperFill input tick r)
      (fun _ => HedgedAt input.hedgeQuote h₀) (fun _ => SamePerp h₀) (fun _ => True) := by
  have hkeeps : ∀ {α : Type} (p : Service α), Proc.Triple (SamePerp h₀) (onWorld p)
      (fun _ => SamePerp h₀) (fun _ => SamePerp h₀) (fun _ => True) :=
    fun p => (samePerp_onWorld p).weaken (fun _ _ hh => hh) fun _ _ => trivial
  refine Proc.Triple.bind (Q := fun _ => SamePerp h₀) (Proc.Triple.get fun _ hh => hh) fun v => ?_
  split
  · exact Proc.Triple.pure fun _ hh => .same hh
  refine Proc.Triple.bind (hkeeps _) fun out => ?_
  split
  · exact (hkeeps _).mono (fun _ hh => hh) fun _ _ hh => .same hh
  refine Proc.Triple.bind (Q := fun _ => SamePerp h₀) (Proc.Triple.modify fun h hh => ?_) fun _ => ?_
  · refine hh.trans ?_
    unfold noteFill
    dsimp only
    split
    · split <;> exact ⟨rfl, rfl, rfl⟩
    · exact ⟨rfl, rfl, rfl⟩
  refine Proc.Triple.bind (hkeeps _) fun _ => ?_
  split
  · exact hedgedAt_openHedge _ _ _ _
  · exact Proc.Triple.pure fun _ hh => .same hh

/-- **Up to its funding** a cycle opens at most the hedge of its spot fill. -/
theorem hedgedAt_toFunding :
    Proc.Triple (SamePerp h₀) (svc.toFunding input) (fun _ => HedgedAt input.hedgeQuote h₀)
      (fun _ => SamePerp h₀) (fun _ => True) := by
  refine Proc.Triple.bind (Q := fun _ => SamePerp h₀)
    (Proc.Triple.modify fun h hh => hh.trans ⟨rfl, rfl, rfl⟩) fun _ => ?_
  refine Proc.Triple.bind (Q := fun _ => SamePerp h₀) ?_ fun ⟨tick, r⟩ => ?_
  · refine Proc.Triple.bind (Q := fun _ => SamePerp h₀) (Proc.Triple.get fun _ hh => hh) fun v => ?_
    refine Proc.Triple.bind (Q := fun _ => SamePerp h₀)
      (Proc.Triple.modify fun h hh => hh.trans ⟨rfl, rfl, rfl⟩) fun _ => ?_
    exact (samePerp_onWorld _).weaken (fun _ _ hh => hh) fun _ _ => trivial
  · exact Proc.Triple.bind (hedgedAt_applyPaperFill tick r) fun _ => Proc.Triple.pure fun _ hh => hh

/-- The carry path hedges at its quote. -/
theorem quote_of_carryFill {q : PerpQuote} {fill : ExecutionFill}
    (hfill : svc.carryFill input h = some (q, fill)) : input.carryQuote = some q := by
  unfold carryFill at hfill
  dsimp only at hfill
  split at hfill
  · cases hfill
  split at hfill
  · rename_i quote' _ _ hquote _
    split at hfill
    · cases hfill
    · obtain ⟨side, -, heq⟩ := Option.map_eq_some_iff.mp hfill
      rw [hquote, (Prod.mk.inj heq).1]
  · cases hfill

theorem samePerp_reconcileNow (input : PassInput) :
    Proc.Keeps (SamePerp h₀) (svc.reconcileNow input) := by
  have hkeeps : ∀ h h', SamePerp h h' → SamePerp h₀ h → SamePerp h₀ h' := fun _ _ hs hh => hh.trans hs
  refine keeps_reconcileNow (fun h w => hkeeps h _ ⟨rfl, rfl, rfl⟩) ?_ svc input
  refine Proc.Keeps.get_bind fun v => ?_
  split
  · exact Proc.Keeps.raise _
  · exact Proc.Triple.effect fun h hh =>
      ⟨hkeeps h _ ⟨rfl, rfl, rfl⟩ hh, hkeeps h _ ⟨rfl, rfl, rfl⟩ hh⟩

theorem hedgedAt_closeCycle : Proc.Keeps (HedgedAt quote h₀) (closeCycle input) := by
  have hsame : ∀ h h', SamePerp h h' → HedgedAt quote h₀ h → HedgedAt quote h₀ h' :=
    fun _ _ hs hh => hh.trans_same hs
  refine Proc.Keeps.bind (keeps_onWorld (fun h w => hsame h _ ⟨rfl, rfl, rfl⟩) _) fun _ => ?_
  split
  · exact Proc.Keeps.raise _
  refine Proc.Keeps.get_bind fun v => ?_
  split
  · exact Proc.Keeps.raise _
  · exact Proc.Triple.effect fun h hh =>
      ⟨hsame h _ ⟨rfl, rfl, rfl⟩ hh, hsame h _ ⟨rfl, rfl, rfl⟩ hh⟩

/-- **After its funding** a cycle opens at most the hedge of its carry path. -/
theorem hedgedAt_fromFunding (decided : MarketTick × PipelineResult) :
    Proc.Triple (fun h => h = h₀) (svc.fromFunding input decided)
      (fun _ => HedgedAt input.carryQuote (svc.afterFunding input h₀))
      (fun _ => HedgedAt input.carryQuote (svc.afterFunding input h₀)) (fun _ => True) := by
  refine Proc.Triple.bind (Q := fun _ => SamePerp (svc.afterFunding input h₀))
    (Proc.Triple.modify fun h hh => by rw [hh]; exact .refl _) fun _ => ?_
  have hcarry : Proc.Triple (SamePerp (svc.afterFunding input h₀)) (svc.openCarryHedge input)
      (fun _ => HedgedAt input.carryQuote (svc.afterFunding input h₀))
      (fun _ => HedgedAt input.carryQuote (svc.afterFunding input h₀)) (fun _ => True) := by
    refine Proc.Triple.bind (Q := fun _ => SamePerp (svc.afterFunding input h₀))
      (Proc.Triple.get fun _ hh => hh) fun v => ?_
    cases hfill : svc.carryFill input v with
    | none => exact Proc.Triple.pure fun _ hh => .same hh
    | some hedge =>
      obtain ⟨q, fill⟩ := hedge
      rw [quote_of_carryFill hfill]
      exact (hedgedAt_openHedge input fill (some q) fill.orderId).weaken (fun _ _ hh => .same hh)
        fun _ _ => trivial
  refine Proc.Triple.bind hcarry fun _ => ?_
  have hrest : Proc.Keeps (HedgedAt input.carryQuote (svc.afterFunding input h₀))
      (do onWorld (ContinuousPaperService.markTick decided.1 decided.2)
          closeCycle input) :=
    Proc.Keeps.bind (keeps_onWorld (fun h w hh => hh.trans_same ⟨rfl, rfl, rfl⟩) _)
      fun _ => hedgedAt_closeCycle
  exact hrest.weaken (fun _ _ hh => hh) fun _ _ => trivial

/-- **A cycle as its funding step sees it**: it ends before, with the hedges as they
were, or it hedges, is funded, and hedges. -/
theorem atFunding_cases (svc : HedgedPaperService) (input : HedgedCycleInput) (h : HedgedWorld) :
    (svc.atFunding input h = none ∧ SamePerp h (svc.step h (.cycle input none))) ∨
      ∃ h', svc.atFunding input h = some h' ∧ HedgedAt input.hedgeQuote h h' ∧
        HedgedAt input.carryQuote (svc.afterFunding input h')
          (svc.step h (.cycle input none)) := by
  obtain ⟨hexit, -⟩ := @hedgedAt_toFunding svc input h h (.refl h)
  unfold atFunding
  show (_ ∧ SamePerp h (svc.cycle input h).world) ∨ ∃ h', _ ∧ _ ∧
    HedgedAt _ _ (svc.cycle input h).world
  rw [cycle_eq]
  cases hran : (svc.toFunding input h).exit with
  | error e =>
    rw [hran] at hexit
    rw [Proc.bind_of_error hran]
    exact .inl ⟨rfl, hexit⟩
  | ok decided =>
    rw [hran] at hexit
    rw [Proc.bind_of_ok hran]
    refine .inr ⟨_, rfl, hexit, ?_⟩
    obtain ⟨hend, -⟩ := @hedgedAt_fromFunding svc input (svc.toFunding input h).world decided _ rfl
    split at hend
    · exact hend
    · exact hend

/-- A funding step that applies its tape to the hedge of its asset. -/
structure Paid (svc : HedgedPaperService) (input : HedgedCycleInput) (h : HedgedWorld)
    (position : PaperPerpPosition) (venue : String) (since : Time) (first : Time × ℚ)
    (rest : List (Time × ℚ)) : Prop where
  pulled : svc.pull input h = some (position, venue, since)
  tape : input.fundingTape = some (first :: rest)
  fetched : svc.fetchedBy input h
    = (first :: rest).map fun s => (symbolAsset input.symbol, s)
  credited : svc.creditedBy input h = (first :: rest).map fun s =>
    ⟨symbolAsset input.symbol, s, (input.fundingMark venue).getD position.entryPriceUsd⟩
  positions : (svc.afterFunding input h).perp.positions
    = h.perp.positions.set (symbolAsset input.symbol)
      { position with
        fundingPnlUsd := position.fundingPnlUsd
          + ((svc.creditedBy input h).map fun c => c.amountUsd position).sum }
  venue : (svc.afterFunding input h).perpVenue = h.perpVenue
  cursor : (svc.afterFunding input h).perpLastFundingAt
    = h.perpLastFundingAt.set (symbolAsset input.symbol) (lastKey Prod.fst first rest)

theorem upper_symbolAsset (symbol : String) : Text.upper (symbolAsset symbol) = symbolAsset symbol :=
  Text.upper_upper _

theorem pull_some {position : PaperPerpPosition} {venue : String} {since : Time}
    (hpull : svc.pull input h = some (position, venue, since)) :
    svc.perpHedge = true ∧ h.perp.positions.get? (symbolAsset input.symbol) = some position ∧
      h.perpVenue.get? (symbolAsset input.symbol) = some venue ∧
      h.perpLastFundingAt.get? (symbolAsset input.symbol) = some since := by
  unfold pull at hpull
  dsimp only at hpull
  split at hpull
  · rename_i hon
    split at hpull
    · rename_i hposition hvenue hsince
      cases hpull
      exact ⟨hon, hposition, hvenue, hsince⟩
    · cases hpull
  · cases hpull

/-- A mark of the feed is positive, and never passed over. -/
theorem filter_fundingMark
    (hquote : ∀ quote, input.fundingQuote = some quote → 0 < quote.midUsd) (venue : String) :
    ((input.fundingMark venue).filter fun mark => 0 < mark) = input.fundingMark venue := by
  cases hmark : input.fundingMark venue with
  | none => rfl
  | some mark =>
    obtain ⟨quote, hfilter, rfl⟩ := Option.map_eq_some_iff.mp hmark
    have hpos : 0 < quote.midUsd := hquote quote (Option.filter_eq_some_iff.mp hfilter).1
    exact Option.filter_eq_some_iff.mpr ⟨rfl, decide_eq_true hpos⟩

/-- The world after a funding step that came to a tape. -/
theorem funded_of_pull {position : PaperPerpPosition} {venue : String} {since : Time}
    {first : Time × ℚ} {rest : List (Time × ℚ)}
    (hpull : svc.pull input h = some (position, venue, since))
    (htape : input.fundingTape = some (first :: rest)) :
    funded input h =
      if (h.perp.applyFunding input.killSwitch (first :: rest) (symbolAsset input.symbol)
          (input.fundingMark venue)).1.applied then
        { h with
          perp := (h.perp.applyFunding input.killSwitch (first :: rest) (symbolAsset input.symbol)
            (input.fundingMark venue)).2
          perpLastFundingAt := h.perpLastFundingAt.set (symbolAsset input.symbol)
            (lastKey Prod.fst first rest) }
      else
        { h with
          perp := (h.perp.applyFunding input.killSwitch (first :: rest) (symbolAsset input.symbol)
            (input.fundingMark venue)).2 } := by
  obtain ⟨-, hposition, hvenue, hsince⟩ := pull_some hpull
  unfold funded
  dsimp only
  rw [hposition, hvenue, hsince, htape]
  rfl

/-- **The funding step**: it applies its tape, or credits nothing, fetches nothing
with the switch off and changes no hedge. -/
theorem funding_cases (hquote : ∀ quote, input.fundingQuote = some quote → 0 < quote.midUsd) :
    (SamePerp h (svc.afterFunding input h) ∧ svc.fetchedBy input h = [] ∧
        svc.creditedBy input h = []) ∨
      ∃ position venue since first rest, Paid svc input h position venue since first rest := by
  cases hpull : svc.pull input h with
  | none =>
    refine .inl ⟨?_, ?_, ?_⟩
    · unfold afterFunding
      split
      · rename_i hon
        unfold pull at hpull
        dsimp only at hpull
        rw [if_pos hon] at hpull
        unfold funded
        dsimp only
        split
        · rename_i hposition hvenue hsince _
          rw [hposition, hvenue, hsince] at hpull
          cases hpull
        · exact .refl h
      · exact .refl h
    · unfold fetchedBy
      rw [hpull]
    · unfold creditedBy
      rw [hpull]
  | some due =>
    obtain ⟨position, venue, since⟩ := due
    obtain ⟨hon, hposition, hvenue, hsince⟩ := pull_some hpull
    unfold afterFunding
    rw [if_pos hon]
    cases htape : input.fundingTape with
    | none =>
      refine .inl ⟨?_, ?_, ?_⟩
      · unfold funded
        dsimp only
        rw [hposition, hvenue, hsince, htape]
        exact .refl h
      · unfold fetchedBy
        rw [hpull, htape]
      · unfold creditedBy
        rw [hpull, htape]
    | some tape =>
      cases tape with
      | nil =>
        refine .inl ⟨?_, ?_, ?_⟩
        · unfold funded
          dsimp only
          rw [hposition, hvenue, hsince, htape]
          exact .refl h
        · unfold fetchedBy
          rw [hpull, htape]
          exact ite_self []
        · unfold creditedBy
          rw [hpull, htape]
          exact ite_self []
      | cons first rest =>
        have hfunded := funded_of_pull hpull htape
        cases hkill : input.killSwitch.any KillSwitch.engaged with
        | true =>
          -- fetched, and withheld
          have hwithheld := h.perp.applyFunding_of_engaged hkill (first :: rest)
            (symbolAsset input.symbol) (input.fundingMark venue)
          rw [hwithheld] at hfunded
          refine .inl ⟨?_, ?_, ?_⟩
          · rw [hfunded]
            exact .refl h
          · unfold fetchedBy
            rw [hpull, htape, hkill]
            exact if_pos rfl
          · unfold creditedBy
            rw [hpull, htape]
            dsimp only
            rw [hwithheld]
            rfl
        | false =>
          have hopen : h.perp.positions.get? (Text.upper (symbolAsset input.symbol))
              = some position := by
            rw [upper_symbolAsset]
            exact hposition
          obtain ⟨happlied, hpositions⟩ :=
            PaperPerpBook.applyFunding_of_open hkill hopen first rest (input.fundingMark venue)
          rw [happlied, if_pos rfl] at hfunded
          have hcredited : svc.creditedBy input h = (first :: rest).map fun s =>
              ⟨symbolAsset input.symbol, s,
                (input.fundingMark venue).getD position.entryPriceUsd⟩ := by
            unfold creditedBy
            rw [hpull, htape]
            dsimp only
            rw [happlied]
            exact if_pos rfl
          refine .inr ⟨position, venue, since, first, rest, hpull, htape, ?_, hcredited, ?_, ?_, ?_⟩
          · unfold fetchedBy
            rw [hpull, htape, hkill]
            exact if_neg Bool.false_ne_true
          · unfold afterFunding
            rw [if_pos hon, hfunded]
            dsimp only
            rw [hpositions, hcredited, List.map_map, upper_symbolAsset,
              filter_fundingMark hquote venue]
            rfl
          · unfold afterFunding
            rw [if_pos hon, hfunded]
          · unfold afterFunding
            rw [if_pos hon, hfunded]

end HedgedPaperService

/-! ## Every hedge has kept up with its venue -/

namespace FundingRecord

open HedgedWorld HedgedPaperService

/-- **A hedge has kept up**: it read its venue's prints from the instant of its quote
to its cursor, and its funding is what it was credited. -/
structure KeptUp (prints : String → String → Prints) (g : FundingRecord) (asset : String)
    (position : PaperPerpPosition) (venue : String) (opened since : Time) : Prop where
  atVenue : g.world.perpVenue.get? asset = some venue
  atCursor : g.world.perpLastFundingAt.get? asset = some since
  openedAt : g.openedAt asset = some opened
  caughtUp : CaughtUp Prod.fst (prints venue asset) opened since (g.creditedPrints asset)
  fetched : ∀ s, (asset, s) ∈ g.fetched → s.1 ≤ since
  funding : position.fundingPnlUsd = ((g.creditsOf asset).map fun c => c.amountUsd position).sum

/-- Every open hedge has kept up, and no other asset was credited. -/
structure Accounted (prints : String → String → Prints) (g : FundingRecord) : Prop where
  opened : ∀ asset position, g.world.perp.positions.get? asset = some position →
    ∃ venue opened since, KeptUp prints g asset position venue opened since
  closed : ∀ asset, g.world.perp.positions.get? asset = none →
    g.creditsOf asset = [] ∧ ∀ s, (asset, s) ∉ g.fetched

variable {prints : String → String → Prints} {g : FundingRecord} {svc : HedgedPaperService}
  {input : HedgedCycleInput} {quote : Option PerpQuote} {h : HedgedWorld}

theorem accounted_start (prints : String → String → Prints) (svc : HedgedPaperService) :
    Accounted prints svc.recordStart where
  opened := by
    intro asset position hget
    cases hget
  closed := fun _ _ => ⟨rfl, nofun⟩

theorem Accounted.same (hg : Accounted prints g) (hs : SamePerp g.world h) :
    Accounted prints { g with world := h } where
  opened := by
    intro asset position hget
    rw [hs.positions] at hget
    obtain ⟨venue, opened, since, hk⟩ := hg.opened asset position hget
    exact ⟨venue, opened, since, hs.venue ▸ hk.atVenue, hs.cursor ▸ hk.atCursor, hk.openedAt,
      hk.caughtUp, hk.fetched, hk.funding⟩
  closed := by
    intro asset hget
    rw [hs.positions] at hget
    exact hg.closed asset hget

theorem openedAt_hedged_of_iff {asset : String}
    (hopen : (h.perp.positions.get? asset).isSome = (g.world.perp.positions.get? asset).isSome) :
    (g.hedged quote h).openedAt asset = g.openedAt asset := by
  show (if _ then _ else _) = _
  rw [hopen]
  cases g.world.perp.positions.get? asset <;> rfl

/-- **A hedge that opens** has nothing to keep up with yet. -/
theorem Accounted.hedged (hg : Accounted prints g) (hh : HedgedAt quote g.world h) :
    Accounted prints (g.hedged quote h) := by
  cases hh with
  | same hs =>
    have hsame := hg.same hs
    refine ⟨fun asset position hget => ?_, hsame.closed⟩
    obtain ⟨venue, opened, since, hk⟩ := hsame.opened asset position hget
    refine ⟨venue, opened, since, hk.atVenue, hk.atCursor, ?_, hk.caughtUp, hk.fetched, hk.funding⟩
    rw [openedAt_hedged_of_iff (by rw [hs.positions])]
    exact hk.openedAt
  | opened name q hedge hquote hclosed hunfunded hpositions hvenue hcursor =>
    have hget : ∀ asset, h.perp.positions.get? asset
        = if asset = name then some hedge else g.world.perp.positions.get? asset := by
      intro asset
      rw [hpositions, Dict.get?_set]
    refine ⟨fun asset position hposition => ?_, fun asset hnone => ?_⟩
    · rw [show (g.hedged quote h).world = h from rfl, hget] at hposition
      by_cases hasset : asset = name
      · subst hasset
        rw [if_pos rfl] at hposition
        cases hposition
        obtain ⟨hcredits, hfetched⟩ := hg.closed asset hclosed
        refine ⟨q.venue, q.observedAt, q.observedAt, ?_, ?_, ?_, ?_, ?_, ?_⟩
        · show h.perpVenue.get? asset = _
          rw [hvenue, Dict.get?_set_self]
        · show h.perpLastFundingAt.get? asset = _
          rw [hcursor, Dict.get?_set_self]
        · show (if _ then _ else _) = _
          rw [hget, if_pos rfl, hclosed, hquote]
          rfl
        · have hnone : (g.hedged quote h).creditedPrints asset = [] := by
            show (g.creditsOf asset).map _ = []
            rw [hcredits]
            rfl
          rw [hnone]
          exact CaughtUp.new _ _ _
        · exact fun s hs => absurd hs (hfetched s)
        · show hedge.fundingPnlUsd = ((g.creditsOf asset).map _).sum
          rw [hunfunded, hcredits]
          rfl
      · rw [if_neg hasset] at hposition
        obtain ⟨venue, opened, since, hk⟩ := hg.opened asset position hposition
        refine ⟨venue, opened, since, ?_, ?_, ?_, hk.caughtUp, hk.fetched, hk.funding⟩
        · show h.perpVenue.get? asset = _
          rw [hvenue, Dict.get?_set_of_ne _ hasset]
          exact hk.atVenue
        · show h.perpLastFundingAt.get? asset = _
          rw [hcursor, Dict.get?_set_of_ne _ hasset]
          exact hk.atCursor
        · rw [openedAt_hedged_of_iff (by rw [hget, if_neg hasset])]
          exact hk.openedAt
    · rw [show (g.hedged quote h).world = h from rfl, hget] at hnone
      by_cases hasset : asset = name
      · rw [if_pos hasset] at hnone
        cases hnone
      · rw [if_neg hasset] at hnone
        exact hg.closed asset hnone

theorem creditsOf_funded (g : FundingRecord) (svc : HedgedPaperService) (input : HedgedCycleInput)
    (asset : String) :
    (g.funded svc input).creditsOf asset
      = g.creditsOf asset ++ (svc.creditedBy input g.world).filter fun c => c.asset = asset :=
  List.filter_append _ _

/-- What a funding step credits, it credits to the symbol's asset. -/
theorem creditsOf_paid {position : PaperPerpPosition} {venue : String} {since : Time}
    {first : Time × ℚ} {rest : List (Time × ℚ)}
    (hpaid : Paid svc input g.world position venue since first rest) (asset : String) :
    (g.funded svc input).creditsOf asset
      = if asset = symbolAsset input.symbol then
          g.creditsOf asset ++ svc.creditedBy input g.world
        else g.creditsOf asset := by
  rw [creditsOf_funded]
  have hall : ∀ c ∈ svc.creditedBy input g.world, c.asset = symbolAsset input.symbol := by
    intro c hc
    rw [hpaid.credited] at hc
    obtain ⟨s, -, rfl⟩ := List.mem_map.mp hc
    rfl
  by_cases hasset : asset = symbolAsset input.symbol
  · rw [if_pos hasset, List.filter_eq_self.mpr]
    intro c hc
    rw [hasset]
    exact decide_eq_true (hall c hc)
  · rw [if_neg hasset, List.filter_eq_nil_iff.mpr, List.append_nil]
    intro c hc heq
    exact hasset ((decide_eq_true_eq.mp heq).symm.trans (hall c hc))

theorem mem_fetched_paid {position : PaperPerpPosition} {venue : String} {since : Time}
    {first : Time × ℚ} {rest : List (Time × ℚ)}
    (hpaid : Paid svc input g.world position venue since first rest) {asset : String}
    {s : Time × ℚ} (hs : (asset, s) ∈ (g.funded svc input).fetched) :
    (asset, s) ∈ g.fetched ∨ asset = symbolAsset input.symbol ∧ s ∈ first :: rest := by
  rcases List.mem_append.mp hs with hs | hs
  · exact .inl hs
  · rw [hpaid.fetched] at hs
    obtain ⟨t, ht, heq⟩ := List.mem_map.mp hs
    obtain ⟨hasset, rfl⟩ := Prod.mk.inj heq
    exact .inr ⟨hasset.symm, ht⟩

/-- The tape a funding step applies answers the poll at its cursor. -/
theorem answers_of_served {position : PaperPerpPosition} {venue : String} {since : Time}
    {first : Time × ℚ} {rest : List (Time × ℚ)}
    (hprints : ∀ venue asset, Increasing Prod.fst (prints venue asset))
    (hserved : svc.Served prints input h) (hpaid : Paid svc input h position venue since first rest) :
    Answers Prod.fst (prints venue (symbolAsset input.symbol)) since (first :: rest) := by
  obtain ⟨rows, htape, hrows⟩ := hserved.tape _ _ _ _ hpaid.pulled hpaid.tape
  cases rows with
  | none => cases htape
  | some points =>
    obtain ⟨visible, hvisible, hpoints, hnew⟩ := hrows points rfl
    rw [htape]
    exact answers_fetch (hprints _ _) hvisible hpoints hnew

/-- **The funding step** keeps every hedge up with its venue. -/
theorem Accounted.funded (hprints : ∀ venue asset, Increasing Prod.fst (prints venue asset))
    (hg : Accounted prints g) (hserved : svc.Served prints input g.world) :
    Accounted prints (g.funded svc input) := by
  rcases HedgedPaperService.funding_cases hserved.quote with
    ⟨hs, hfetched, hcredited⟩ | ⟨position₀, venue₀, since₀, first, rest, hpaid⟩
  · have heq : g.funded svc input = { g with world := svc.afterFunding input g.world } := by
      unfold FundingRecord.funded
      rw [hfetched, hcredited, List.append_nil, List.append_nil]
    rw [heq]
    exact hg.same hs
  have hanswer := answers_of_served hprints hserved hpaid
  obtain ⟨-, hposition₀, hvenue₀, hsince₀⟩ := HedgedPaperService.pull_some hpaid.pulled
  have hget : ∀ asset, (g.funded svc input).world.perp.positions.get? asset
      = if asset = symbolAsset input.symbol then
          some { position₀ with
            fundingPnlUsd := position₀.fundingPnlUsd
              + ((svc.creditedBy input g.world).map fun c => c.amountUsd position₀).sum }
        else g.world.perp.positions.get? asset := by
    intro asset
    show (svc.afterFunding input g.world).perp.positions.get? asset = _
    rw [hpaid.positions, Dict.get?_set]
  refine ⟨fun asset position hposition => ?_, fun asset hnone => ?_⟩
  · rw [hget] at hposition
    by_cases hasset : asset = symbolAsset input.symbol
    · subst hasset
      rw [if_pos rfl] at hposition
      cases hposition
      obtain ⟨venue, opened, since, hk⟩ := hg.opened _ _ hposition₀
      cases hk.atVenue.symm.trans hvenue₀
      cases hk.atCursor.symm.trans hsince₀
      have hcredits : (g.funded svc input).creditsOf (symbolAsset input.symbol)
          = g.creditsOf (symbolAsset input.symbol) ++ svc.creditedBy input g.world :=
        (creditsOf_paid hpaid _).trans (if_pos rfl)
      have hlast : ∀ s ∈ first :: rest, s.1 ≤ lastKey Prod.fst first rest :=
        fun s hs => key_le_lastKey hs
      have hcaught := hk.caughtUp.poll (hprints _ _) hanswer
      refine ⟨venue₀, opened, lastKey Prod.fst first rest, ?_, ?_, hk.openedAt, ?_, ?_, ?_⟩
      · show (svc.afterFunding input g.world).perpVenue.get? _ = _
        rw [hpaid.venue]
        exact hk.atVenue
      · show (svc.afterFunding input g.world).perpLastFundingAt.get? _ = _
        rw [hpaid.cursor, Dict.get?_set_self]
      · have hcreditedPrints : (g.funded svc input).creditedPrints (symbolAsset input.symbol)
            = g.creditedPrints (symbolAsset input.symbol) ++ first :: rest := by
          unfold creditedPrints
          rw [hcredits, List.map_append, hpaid.credited, List.map_map]
          exact congrArg _ (List.map_id _)
        rw [hcreditedPrints]
        exact hcaught
      · intro s hs
        rcases mem_fetched_paid hpaid hs with hold | ⟨-, hnew⟩
        · -- the cursor has only moved forward
          obtain ⟨t, ht, hkey⟩ := exists_key_eq_lastKey Prod.fst first rest
          obtain ⟨visible, -, hmem⟩ := hanswer.visible
          exact (hk.fetched s hold).trans (hkey ▸ ((hmem t).mp ht).2.le)
        · exact hlast s hnew
      · rw [hcredits, List.map_append, List.sum_append]
        show position₀.fundingPnlUsd + _ = _
        rw [hk.funding]
        rfl
    · rw [if_neg hasset] at hposition
      obtain ⟨venue, opened, since, hk⟩ := hg.opened asset position hposition
      have hcredits : (g.funded svc input).creditsOf asset = g.creditsOf asset :=
        (creditsOf_paid hpaid asset).trans (if_neg hasset)
      refine ⟨venue, opened, since, ?_, ?_, hk.openedAt, ?_, ?_, ?_⟩
      · show (svc.afterFunding input g.world).perpVenue.get? _ = _
        rw [hpaid.venue]
        exact hk.atVenue
      · show (svc.afterFunding input g.world).perpLastFundingAt.get? _ = _
        rw [hpaid.cursor, Dict.get?_set_of_ne _ hasset]
        exact hk.atCursor
      · unfold creditedPrints
        rw [hcredits]
        exact hk.caughtUp
      · intro s hs
        rcases mem_fetched_paid hpaid hs with hold | ⟨hsame, -⟩
        · exact hk.fetched s hold
        · exact absurd hsame hasset
      · rw [hcredits]
        exact hk.funding
  · rw [hget] at hnone
    by_cases hasset : asset = symbolAsset input.symbol
    · rw [if_pos hasset] at hnone
      cases hnone
    · rw [if_neg hasset] at hnone
      obtain ⟨hcredits, hfetched⟩ := hg.closed asset hnone
      refine ⟨((creditsOf_paid hpaid asset).trans (if_neg hasset)).trans hcredits, fun s hs => ?_⟩
      rcases mem_fetched_paid hpaid hs with hold | ⟨hsame, -⟩
      · exact hfetched s hold
      · exact hasset hsame

/-! ## Every run -/

theorem accounted_step (hprints : ∀ venue asset, Increasing Prod.fst (prints venue asset))
    {e : HedgedPaperService.Event} (hserved : svc.ServedStep prints g e)
    (hg : Accounted prints g) : Accounted prints (svc.recordStep g e) := by
  cases e with
  | reconcile input crash =>
    obtain rfl : crash = none := hserved
    refine hg.same ?_
    obtain ⟨hexit, -⟩ := @samePerp_reconcileNow svc g.world input g.world (.refl _)
    show SamePerp g.world (svc.reconcileNow input g.world).world
    split at hexit
    · exact hexit
    · exact hexit
  | cycle input crash =>
    obtain ⟨rfl, hfeed⟩ := hserved
    unfold recordStep
    rcases atFunding_cases svc input g.world with ⟨hnone, hs⟩ | ⟨h, hsome, hfirst, hlast⟩
    · dsimp only
      rw [hnone]
      exact hg.same hs
    · dsimp only
      rw [hsome]
      exact ((hg.hedged hfirst).funded hprints (hfeed h hsome)).hedged hlast

/-- **In every run** every hedge has kept up with its venue. -/
theorem accounted_run (svc : HedgedPaperService) (prints : String → String → Prints)
    (hprints : ∀ venue asset, Increasing Prod.fst (prints venue asset)) (es : List Event)
    (hserved : Along svc.recordStep (svc.ServedStep prints) svc.recordStart es) :
    Accounted prints (run svc.recordStep svc.recordStart es) :=
  run_invariant_along (fun _ _ => accounted_step hprints) _ es hserved
    (accounted_start prints svc)

/-- Each print is credited once, by the time it was fetched with the switch off, and
the hedge's funding is the sum of its credits. -/
structure CreditedOnce (prints : String → String → Prints) (g : FundingRecord) (asset : String)
    (position : PaperPerpPosition) (venue : String) (opened : Time) : Prop where
  /-- Only prints of the venue, later than the hedge's quote, are credited, -/
  published : ∀ s ∈ g.creditedPrints asset, s ∈ prints venue asset ∧ opened < s.1
  /-- none of them twice, -/
  once : ∀ s, (g.creditedPrints asset).count s ≤ 1
  /-- and each that is no later than a fetched one is. -/
  fetched : ∀ s ∈ prints venue asset, opened < s.1 → ∀ t, (asset, t) ∈ g.fetched → s.1 ≤ t.1 →
    (g.creditedPrints asset).count s = 1
  funding : position.fundingPnlUsd = ((g.creditsOf asset).map fun c => c.amountUsd position).sum

theorem KeptUp.creditedOnce {asset : String} {position : PaperPerpPosition} {venue : String}
    {opened since : Time} (hk : KeptUp prints g asset position venue opened since)
    (hlog : Increasing Prod.fst (prints venue asset)) :
    CreditedOnce prints g asset position venue opened where
  published := by
    intro s hs
    obtain ⟨hpublished, hlater, -⟩ := hk.caughtUp.mem_iff.mp hs
    exact ⟨hpublished, hlater⟩
  once := List.nodup_iff_count_le_one.mp (hk.caughtUp.nodup hlog)
  fetched := by
    intro s hs hlater t ht hle
    refine List.count_eq_one_of_mem (hk.caughtUp.nodup hlog) (hk.caughtUp.mem_iff.mpr ?_)
    exact ⟨hs, hlater, hle.trans (hk.fetched t ht)⟩
  funding := hk.funding

end FundingRecord

namespace HedgedPaperService

open FundingRecord

/-- **Funding is credited exactly once.** In every run of one process whose fetches
answer with the visible prints past the cursor, or fail, every open hedge was
credited each print after its quote's instant once, at the latest when a tape with
it or a later one was fetched with the switch off, and its funding adds its credits
up. -/
theorem funding_credited_once (svc : HedgedPaperService) (prints : String → String → Prints)
    (hprints : ∀ venue asset, Increasing Prod.fst (prints venue asset)) (es : List Event)
    (hserved : Along svc.recordStep (svc.ServedStep prints) svc.recordStart es) (asset : String)
    (position : PaperPerpPosition)
    (hopen : (run svc.recordStep svc.recordStart es).world.perp.positions.get? asset
      = some position) :
    ∃ venue opened,
      (run svc.recordStep svc.recordStart es).world.perpVenue.get? asset = some venue ∧
        (run svc.recordStep svc.recordStart es).openedAt asset = some opened ∧
        CreditedOnce prints (run svc.recordStep svc.recordStart es) asset position venue
          opened := by
  obtain ⟨venue, opened, since, hk⟩ :=
    (accounted_run svc prints hprints es hserved).opened asset position hopen
  exact ⟨venue, opened, hk.atVenue, hk.openedAt, hk.creditedOnce (hprints venue asset)⟩

end HedgedPaperService

/-! ### A carry hedge receives its first print -/

namespace Harvest

/-- The venue published one print after the hedge was quoted. -/
def prints : String → String → Prints := fun _ _ => [(3600, 1 / 10000)]

theorem increasing (venue asset : String) : Increasing Prod.fst (prints venue asset) :=
  List.pairwise_singleton _ _

/-- The cycle an hour after the hedge: it fetches the print, and the venue's mid of
110. -/
def later : HedgedCycleInput :=
  { Carry.input (1 / 10000) with
    fundingTape := some [(3600, 1 / 10000)]
    fundingQuote := some ⟨"hyperliquid", 110, 3600⟩ }

/-- A cycle opens the carry hedge at 100, the next one is funded. -/
def events : List HedgedPaperService.Event :=
  [.cycle (Carry.input (1 / 10000)) none, .cycle later none]

/-- The process after its first cycle. -/
def opened : FundingRecord :=
  Carry.service.recordStep Carry.service.recordStart (.cycle (Carry.input (1 / 10000)) none)

/-- The second cycle's cursor is the instant of the quote. -/
theorem since_eq :
    ((Carry.service.atFunding later opened.world).bind (Carry.service.pull later)).map
      (fun due => due.2.2) = some 0 := by decide +kernel

theorem served : Along Carry.service.recordStep (Carry.service.ServedStep prints)
    Carry.service.recordStart events := by
  refine ⟨⟨rfl, fun h _ => ⟨nofun, fun _ _ _ _ _ htape => nomatch htape⟩⟩, ⟨rfl, ?_⟩, trivial⟩
  intro h hat
  refine ⟨fun quote hquote => ?_, fun position venue since tape hpull htape => ?_⟩
  · cases hquote
    exact (by norm_num : (0 : ℚ) < 110)
  · have hsince := since_eq
    rw [show Carry.service.atFunding later opened.world = some h from hat, Option.bind_some,
      hpull] at hsince
    cases hsince
    cases htape
    refine ⟨some [(3600, 1 / 10000)], by decide +kernel, fun points hpoints => ?_⟩
    cases hpoints
    exact ⟨_, List.prefix_refl _, fun _ hs => hs, fun _ hs _ => hs⟩

end Harvest

namespace HedgedPaperService

open FundingRecord

/-- The short hedge is open, was quoted at 0, and was credited the print once. -/
theorem funding_credited_once_harvest :
    ∃ position venue,
      (run Carry.service.recordStep Carry.service.recordStart Harvest.events).openedAt "BTC"
        = some 0 ∧
      CreditedOnce Harvest.prints
        (run Carry.service.recordStep Carry.service.recordStart Harvest.events) "BTC" position
        venue 0 := by
  have hsome : ((run Carry.service.recordStep Carry.service.recordStart
      Harvest.events).world.perp.positions.get? "BTC").isSome = true := by decide +kernel
  obtain ⟨position, hopen⟩ := Option.isSome_iff_exists.mp hsome
  obtain ⟨venue, opened, -, hopened, hcredited⟩ := funding_credited_once Carry.service
    Harvest.prints Harvest.increasing Harvest.events Harvest.served "BTC" position hopen
  have hquoted : (run Carry.service.recordStep Carry.service.recordStart
      Harvest.events).openedAt "BTC" = some 0 := by decide +kernel
  cases hopened.symm.trans hquoted
  exact ⟨position, venue, hquoted, hcredited⟩

end HedgedPaperService

end TraderStack
