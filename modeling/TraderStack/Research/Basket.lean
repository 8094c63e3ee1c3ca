import TraderStack.Lib.Machine
import TraderStack.Research.Universe

/-!
# The basket simulator (research/xs_topk.py)

Every decision is filled at the open of the next day: each name with an open price is brought to
its share of the equity, where equity counts the names without one at their last mark. Between
the fills the basket drifts and is marked at the closes.

- `value_trade`, `cash_trade`: one trade;
- `fillSound_iff`: **a fill is self-financing and not levered** exactly when the equity it sizes
  on is not negative and what it leaves alone fits beside what it buys;
- `fees_run`: the fees of a run are the costs of its fills;
- `basket_selfFinancing_iff`: the same for every fill of a run.
-/

namespace TraderStack

open Lib

/-! ## Market tables -/

/-- One series of a history, keyed by the opening time; prices that are not positive are left
out. -/
def positiveSeries (price : Candle → ℚ) (candles : List Candle) : Dict Time ℚ :=
  Dict.ofList ((candles.filter fun c => 0 < price c).map fun c => (c.openedAt, price c))

/-- The nonempty series of the canonical names. -/
def seriesByName (price : Candle → ℚ) (histories : Dict String (List Candle)) :
    Dict String (Dict Time ℚ) :=
  Dict.ofList ((historiesByCanonical histories "1d").entries.filterMap fun e =>
    let series := positiveSeries price e.2
    if series.entries = [] then none else some (e.1, series))

/-- `aligned_closes_by_symbol` (xs_topk.py:255–264). -/
def alignedClosesBySymbol (histories : Dict String (List Candle)) : Dict String (Dict Time ℚ) :=
  seriesByName Candle.close histories

/-- `opens_by_symbol` (xs_topk.py:267–275). -/
def opensBySymbol (histories : Dict String (List Candle)) : Dict String (Dict Time ℚ) :=
  seriesByName Candle.openPrice histories

/-- `trading_calendar` (xs_topk.py:278–282). -/
def tradingCalendar (closes : Dict String (Dict Time ℚ)) : List Time :=
  ((closes.values.flatMap Dict.keys).dedup).insertionSort (· ≤ ·)

/-- `MarketTables`. -/
structure MarketTables where
  closes : Dict String (Dict Time ℚ)
  opens : Dict String (Dict Time ℚ)
  calendar : List Time

/-- `market_tables` (xs_topk.py:294–298). -/
def marketTables (histories : Dict String (List Candle)) : MarketTables :=
  let closes := alignedClosesBySymbol histories
  ⟨closes, opensBySymbol histories, tradingCalendar closes⟩

/-- `table.get(name, {}).get(day)`. -/
def tableLookup (table : Dict String (Dict Time ℚ)) (day : Time) (name : String) : Option ℚ :=
  (table.get? name).bind fun series => series.get? day

/-! ## The simulator -/

/-- `RebalanceDecision`. -/
structure RebalanceDecision where
  decidedAt : Time
  weights : Dict String ℚ
deriving DecidableEq

/-- The local state of `run_basket`. -/
structure Basket where
  cash : ℚ
  units : Dict String ℚ
  lastMark : Dict String ℚ
  pending : Option RebalanceDecision
  path : List ℚ
  fees : ℚ
  traded : ℚ
  rebalances : ℕ
  flatWeeks : ℕ
  fillsSkipped : ℕ
  staleMarks : ℕ

namespace Basket

/-- `units.get(name, 0.0)`. -/
def held (s : Basket) (name : String) : ℚ := (s.units.get? name).getD 0

/-- `last_mark.get(name, 0.0)`. -/
def mark (s : Basket) (name : String) : ℚ := (s.lastMark.get? name).getD 0

end Basket

/-- What a fill fixes before it trades. -/
structure BasketFill where
  price : String → Option ℚ
  weight : String → ℚ
  equityOpen : ℚ
  costBps : ℚ

namespace BasketFill

/-- The value a name is brought to. -/
def target (f : BasketFill) (name : String) : ℚ := f.weight name * f.equityOpen

/-- What is bought of a name, in dollars. -/
def delta (f : BasketFill) (held price : ℚ) (name : String) : ℚ := f.target name - held * price

/-- The cost of a trade. -/
def cost (f : BasketFill) (delta : ℚ) : ℚ := |delta| * f.costBps / 10000

/-- The trade of one name (xs_topk.py:526–543). -/
def trade (f : BasketFill) (s : Basket) (name : String) : Basket :=
  match f.price name with
  | none => { s with fillsSkipped := s.fillsSkipped + 1 }
  | some price =>
    let delta := f.delta (s.held name) price name
    if |delta| ≤ 1 / 10 ^ 12 then s
    else
      let s' := { s with
        cash := s.cash - (delta + f.cost delta)
        fees := s.fees + f.cost delta
        traded := s.traded + if 0 < f.equityOpen then |delta| / f.equityOpen else 0 }
      if f.target name ≤ 0 then { s' with units := s'.units.erase name }
      else
        { s' with
          units := s'.units.set name (f.target name / price)
          lastMark := s'.lastMark.set name price }

end BasketFill

/-- `sorted(set(units) | set(pending.weights))`. -/
def fillNames (s : Basket) (d : RebalanceDecision) : List String :=
  (s.units.keys ++ d.weights.keys).dedup.insertionSort (· ≤ ·)

/-- The price a name is valued at before the fill: its open, or its last mark. -/
def fillPrice (opens : String → Option ℚ) (s : Basket) (name : String) : ℚ :=
  (opens name).getD (s.mark name)

/-- The equity a fill sizes on (xs_topk.py:521–525). -/
def equityOpen (opens : String → Option ℚ) (s : Basket) (d : RebalanceDecision) : ℚ :=
  (fillNames s d).foldl (fun equity name => equity + s.held name * fillPrice opens s name) s.cash

/-- What a decision's fill fixes. -/
def fillOf (costBps : ℚ) (opens : String → Option ℚ) (s : Basket) (d : RebalanceDecision) :
    BasketFill :=
  ⟨opens, fun name => (d.weights.get? name).getD 0, equityOpen opens s d, costBps⟩

/-- The fill of a decision (xs_topk.py:518–545). -/
def fillBasket (costBps : ℚ) (opens : String → Option ℚ) (s : Basket) (d : RebalanceDecision) :
    Basket :=
  let s' := (fillNames s d).foldl (fillOf costBps opens s d).trade s
  { s' with rebalances := s'.rebalances + 1, pending := none }

/-- The mark of one held name (xs_topk.py:547–554), with the equity so far. -/
def markName (closes : String → Option ℚ) (acc : ℚ × Basket) (e : String × ℚ) : ℚ × Basket :=
  let (equity, s) := acc
  match closes e.1 with
  | none => (equity + e.2 * s.mark e.1, { s with staleMarks := s.staleMarks + 1 })
  | some close => (equity + e.2 * close, { s with lastMark := s.lastMark.set e.1 close })

/-- The mark of a day (xs_topk.py:546–555). -/
def markDay (closes : String → Option ℚ) (s : Basket) : Basket :=
  let (equity, s') := s.units.entries.foldl (markName closes) (s.cash, s)
  { s' with path := s'.path ++ [equity] }

/-- What the loop reads besides its state. -/
structure BasketInput where
  tables : MarketTables
  decisions : List RebalanceDecision
  costBps : ℚ

namespace BasketInput

/-- `by_date`. -/
def byDate (i : BasketInput) : Dict Time RebalanceDecision :=
  Dict.ofList (i.decisions.map fun d => (d.decidedAt, d))

/-- The pending fill of a day. -/
def filled (i : BasketInput) (s : Basket) (day : Time) : Basket :=
  match s.pending with
  | none => s
  | some d => fillBasket i.costBps (tableLookup i.tables.opens day) s d

/-- The decision of a day becomes the pending one (xs_topk.py:556–560). -/
def decided (i : BasketInput) (s : Basket) (day : Time) : Basket :=
  match i.byDate.get? day with
  | none => s
  | some d =>
    { s with
      pending := some d
      flatWeeks := if d.weights.entries = [] then s.flatWeeks + 1 else s.flatWeeks }

/-- One day (xs_topk.py:517–560). -/
def stepDay (i : BasketInput) (s : Basket) (day : Time) : Basket :=
  i.decided (markDay (tableLookup i.tables.closes day) (i.filled s day)) day

/-- `max(..., key=decided_at, default=None)`: the latest decision before a day, the first of
equal ones. -/
def carriedIn (i : BasketInput) (first : Time) : Option RebalanceDecision :=
  (i.decisions.filter fun d => d.decidedAt < first).argmax fun d => d.decidedAt

/-- The state before the loop. -/
def start (i : BasketInput) (startingEquity : ℚ) (first : Time) : Basket :=
  ⟨startingEquity, .empty, .empty, i.carriedIn first, [], 0, 0, 0, 0, 0, 0⟩

end BasketInput

/-- `BasketRun`. -/
structure BasketRun where
  calendar : List Time
  path : List ℚ
  fees : ℚ
  traded : ℚ
  rebalances : ℕ
  flatWeeks : ℕ
  fillsSkipped : ℕ
  staleMarks : ℕ

/-- The days of the window. -/
def windowDays (calendar : List Time) (start stop : Option Time) : List Time :=
  calendar.filter fun day => (∀ s ∈ start, s ≤ day) ∧ ∀ e ∈ stop, day < e

/-- `run_basket` (xs_topk.py:470–574), `none` inside where the window is too short. -/
def runBasket (histories : Dict String (List Candle)) (decisions : List RebalanceDecision)
    (costBps startingEquity : ℚ) (start stop : Option Time) : Except String (Option BasketRun) :=
  if costBps < 0 ∨ startingEquity ≤ 0 then
    .error "cost_bps must be >= 0 and starting_equity > 0"
  else
    let tables := marketTables histories
    match windowDays tables.calendar start stop with
    | first :: second :: rest =>
      let i : BasketInput := ⟨tables, decisions, costBps⟩
      let calendar := first :: second :: rest
      let s := run i.stepDay (i.start startingEquity first) calendar
      .ok (some ⟨calendar, s.path, s.fees, s.traded, s.rebalances, s.flatWeeks, s.fillsSkipped,
        s.staleMarks⟩)
    | _ => .ok none

/-! ## One trade -/

/-- Cash and units at given prices. -/
def Basket.value (s : Basket) (price : String → ℚ) : ℚ :=
  s.cash + s.units.sum fun name held => held * price name

namespace BasketFill

/-- What is bought of a name where it is traded at all. -/
def dealt (f : BasketFill) (s : Basket) (name : String) : Option ℚ :=
  (f.price name).bind fun price =>
    let delta := f.delta (s.held name) price name
    if |delta| ≤ 1 / 10 ^ 12 then none else some delta

/-- The cost charged for a name. -/
def costOf (f : BasketFill) (s : Basket) (name : String) : ℚ := (f.dealt s name).elim 0 f.cost

/-- What a trade to a target below zero credits without booking a position for it. -/
def shortfall (f : BasketFill) (s : Basket) (name : String) : ℚ :=
  if (f.dealt s name).isSome then max (-f.target name) 0 else 0

variable {f : BasketFill} {s : Basket} {name : String}

theorem trade_of_dealt_none (h : f.dealt s name = none) :
    (f.trade s name).cash = s.cash ∧ (f.trade s name).units = s.units ∧
      (f.trade s name).fees = s.fees := by
  unfold dealt at h
  unfold trade
  cases hprice : f.price name with
  | none => exact ⟨rfl, rfl, rfl⟩
  | some price =>
    rw [hprice, Option.bind_some] at h
    dsimp only at h ⊢
    split_ifs at h with hsmall
    rw [if_pos hsmall]
    exact ⟨rfl, rfl, rfl⟩

theorem exists_of_dealt {delta : ℚ} (h : f.dealt s name = some delta) :
    ∃ price, f.price name = some price ∧ delta = f.delta (s.held name) price name ∧
      ¬|f.delta (s.held name) price name| ≤ 1 / 10 ^ 12 := by
  obtain ⟨price, hprice, h⟩ := Option.bind_eq_some_iff.mp h
  dsimp only at h
  split_ifs at h with hsmall
  exact ⟨price, hprice, (Option.some.inj h).symm, hsmall⟩

theorem trade_of_dealt {delta : ℚ} (h : f.dealt s name = some delta) :
    ∃ price, f.price name = some price ∧ delta = f.delta (s.held name) price name ∧
      (f.trade s name).cash = s.cash - (delta + f.cost delta) ∧
      (f.trade s name).fees = s.fees + f.cost delta ∧
      (f.trade s name).units =
        if f.target name ≤ 0 then s.units.erase name
        else s.units.set name (f.target name / price) := by
  obtain ⟨price, hprice, rfl, hlarge⟩ := exists_of_dealt h
  refine ⟨price, hprice, rfl, ?_⟩
  simp only [trade, hprice, if_neg hlarge]
  by_cases htarget : f.target name ≤ 0
  · simp only [if_pos htarget, and_self]
  · simp only [if_neg htarget, and_self]

theorem trade_cash : (f.trade s name).cash =
    s.cash - ((f.dealt s name).getD 0 + f.costOf s name) := by
  cases h : f.dealt s name with
  | none => simp [trade_of_dealt_none h, costOf, h]
  | some delta =>
    obtain ⟨price, -, -, hcash, -⟩ := trade_of_dealt h
    simp [hcash, costOf, h]

theorem trade_fees : (f.trade s name).fees = s.fees + f.costOf s name := by
  cases h : f.dealt s name with
  | none => simp [trade_of_dealt_none h, costOf, h]
  | some delta =>
    obtain ⟨price, -, -, -, hfees, -⟩ := trade_of_dealt h
    simp [hfees, costOf, h]

/-- A trade leaves the other names alone. -/
theorem trade_held {other : String} (h : other ≠ name) :
    (f.trade s name).held other = s.held other := by
  unfold Basket.held
  cases hdealt : f.dealt s name with
  | none => rw [(trade_of_dealt_none hdealt).2.1]
  | some delta =>
    obtain ⟨price, -, -, -, -, hunits⟩ := trade_of_dealt hdealt
    rw [hunits]
    split_ifs
    · rw [Dict.get?_erase, if_neg h]
    · rw [Dict.get?_set_of_ne _ h]

theorem dealt_congr {s' : Basket} (h : s'.held name = s.held name) :
    f.dealt s' name = f.dealt s name := by
  unfold dealt
  rw [h]

/-- **One trade** costs the portfolio its cost and nothing else, except that a target below zero
is credited. -/
theorem value_trade (f : BasketFill) (s : Basket) (name : String) (fillPrice : String → ℚ)
    (hprice : ∀ price, f.price name = some price → fillPrice name = price ∧ 0 < price) :
    (f.trade s name).value fillPrice =
      s.value fillPrice - f.costOf s name + f.shortfall s name := by
  unfold Basket.value
  rw [trade_cash]
  cases h : f.dealt s name with
  | none => simp [trade_of_dealt_none h, costOf, shortfall, h]
  | some delta =>
    obtain ⟨price, hname, hdelta, -, -, hunits⟩ := trade_of_dealt h
    obtain ⟨hfill, hpos⟩ := hprice price hname
    have hheld : (s.units.get? name).elim 0 (fun held => held * fillPrice name) =
        s.held name * price := by
      rw [Basket.held, hfill]
      cases s.units.get? name <;> simp
    simp only [costOf, shortfall, h, Option.elim_some, Option.getD_some, Option.isSome_some,
      if_true]
    rw [hunits]
    split_ifs with htarget
    · rw [Dict.sum_erase, hheld, max_eq_left (neg_nonneg.mpr htarget), hdelta, BasketFill.delta]
      ring
    · have hshort : max (-f.target name) 0 = 0 :=
        max_eq_right (neg_nonpos.mpr (not_le.mp htarget).le)
      rw [Dict.sum_set, hheld, hshort, hfill, div_mul_cancel₀ _ hpos.ne', hdelta, BasketFill.delta]
      ring

/-- What is dealt in a name does not depend on the trades of other names. -/
theorem dealt_trade {other : String} (h : other ≠ name) :
    f.dealt (f.trade s name) other = f.dealt s other :=
  dealt_congr (trade_held h)

/-- A quantity to which every trade adds an amount of its own name: over distinct names the
amounts add up. -/
theorem foldl_trade {F : Basket → ℚ} {t : Basket → String → ℚ}
    (hstep : ∀ s name, F (f.trade s name) = F s + t s name)
    (hother : ∀ s name other, other ≠ name → t (f.trade s name) other = t s other)
    {names : List String} (hnodup : names.Nodup) (s : Basket) :
    F (names.foldl f.trade s) = F s + (names.map (t s)).sum := by
  induction names generalizing s with
  | nil => simp
  | cons name rest ih =>
    obtain ⟨hfresh, hrest⟩ := List.nodup_cons.mp hnodup
    have hsame : rest.map (t (f.trade s name)) = rest.map (t s) :=
      List.map_congr_left fun other hmem =>
        hother s name other fun heq => hfresh (heq ▸ hmem)
    rw [List.foldl_cons, ih hrest, hstep, hsame, List.map_cons, List.sum_cons, add_assoc]

end BasketFill

/-! ## One fill -/

section OneFill

variable (costBps : ℚ) (opens : String → Option ℚ) (s : Basket) (d : RebalanceDecision)

theorem nodup_fillNames : (fillNames s d).Nodup :=
  (List.perm_insertionSort _ _).nodup_iff.mpr (List.nodup_dedup _)

theorem mem_fillNames {name : String} :
    name ∈ fillNames s d ↔ name ∈ s.units.keys ∨ name ∈ d.weights.keys := by
  rw [fillNames, List.mem_insertionSort, List.mem_dedup, List.mem_append]

/-- The cost of a fill. -/
def fillCost : ℚ := ((fillNames s d).map ((fillOf costBps opens s d).costOf s)).sum

/-- What the holdings a fill leaves alone are worth: names without an open price, and names that
are on target already. -/
def untouchedValue : ℚ :=
  ((fillNames s d).map fun name =>
    if (fillOf costBps opens s d).dealt s name = none then s.held name * fillPrice opens s name
    else 0).sum

/-- The weight of the names a fill trades. -/
def tradedWeight : ℚ :=
  ((fillNames s d).map fun name =>
    if (fillOf costBps opens s d).dealt s name = none then 0 else (d.weights.get? name).getD 0).sum

theorem equityOpen_eq : equityOpen opens s d =
    s.cash + ((fillNames s d).map fun name => s.held name * fillPrice opens s name).sum := by
  have hfold : ∀ (names : List String) (cash : ℚ),
      names.foldl (fun equity name => equity + s.held name * fillPrice opens s name) cash =
        cash + (names.map fun name => s.held name * fillPrice opens s name).sum := by
    intro names
    induction names with
    | nil => simp
    | cons name rest ih =>
      intro cash
      rw [List.foldl_cons, ih, List.map_cons, List.sum_cons, add_assoc]
  exact hfold _ _

/-- The equity a fill sizes on is the value of the portfolio. -/
theorem equityOpen_eq_value : equityOpen opens s d = s.value (fillPrice opens s) := by
  rw [equityOpen_eq, Basket.value, Dict.sum_eq_sum_keys s.units _ (nodup_fillNames s d)
    fun name h => (mem_fillNames s d).mpr (Or.inl h)]
  congr 2
  refine List.map_congr_left fun name _ => ?_
  rw [Basket.held]
  cases s.units.get? name <;> simp

theorem fees_fillBasket :
    (fillBasket costBps opens s d).fees = s.fees + fillCost costBps opens s d :=
  BasketFill.foldl_trade (f := fillOf costBps opens s d) (F := Basket.fees)
    (fun _ _ => BasketFill.trade_fees)
    (fun _ _ _ h => by rw [BasketFill.costOf, BasketFill.dealt_trade h, BasketFill.costOf])
    (nodup_fillNames s d) s

/-- The cash after a fill, up to its cost, is what the untouched holdings and the traded weight
leave of the equity. -/
theorem cash_fillBasket :
    (fillBasket costBps opens s d).cash + fillCost costBps opens s d =
      equityOpen opens s d * (1 - tradedWeight costBps opens s d) -
        untouchedValue costBps opens s d := by
  let f := fillOf costBps opens s d
  have hcash : (fillBasket costBps opens s d).cash =
      s.cash + ((fillNames s d).map fun name => -((f.dealt s name).getD 0 + f.costOf s name)).sum :=
    BasketFill.foldl_trade (f := f) (F := Basket.cash)
      (t := fun s name => -((f.dealt s name).getD 0 + f.costOf s name))
      (fun _ _ => by rw [BasketFill.trade_cash, sub_eq_add_neg])
      (fun _ _ _ h => by simp only [BasketFill.costOf, BasketFill.dealt_trade h])
      (nodup_fillNames s d) s
  -- what is dealt in a name brings it to its target; what is not dealt stays
  have hname : ∀ name, (f.dealt s name).getD 0 + s.held name * fillPrice opens s name =
      (if f.dealt s name = none then s.held name * fillPrice opens s name else 0) +
        equityOpen opens s d *
          (if f.dealt s name = none then 0 else (d.weights.get? name).getD 0) := by
    intro name
    cases hdealt : f.dealt s name with
    | none => simp
    | some delta =>
      obtain ⟨price, hprice, hdelta, -⟩ := BasketFill.exists_of_dealt hdealt
      have hfill : fillPrice opens s name = price := by
        rw [fillPrice, show opens name = some price from hprice, Option.getD_some]
      simp only [reduceCtorEq, if_false, Option.getD_some, hfill, hdelta, BasketFill.delta,
        BasketFill.target]
      simp only [f, fillOf]
      ring
  have hsum : ∀ names : List String,
      (names.map fun name => -((f.dealt s name).getD 0 + f.costOf s name)).sum =
        (names.map fun name => s.held name * fillPrice opens s name).sum -
          (names.map (f.costOf s)).sum -
          (names.map fun name =>
            if f.dealt s name = none then s.held name * fillPrice opens s name else 0).sum -
          equityOpen opens s d * (names.map fun name =>
            if f.dealt s name = none then 0 else (d.weights.get? name).getD 0).sum := by
    intro names
    induction names with
    | nil => simp
    | cons name rest ih =>
      simp only [List.map_cons, List.sum_cons, ih]
      linarith [hname name]
  have hequity := equityOpen_eq opens s d
  rw [hcash, hsum, fillCost, untouchedValue, tradedWeight]
  linarith

/-- The value after a fill: its cost, and what targets below zero were credited. -/
theorem value_fillBasket (hprice : ∀ name price, opens name = some price → 0 < price) :
    (fillBasket costBps opens s d).value (fillPrice opens s) =
      s.value (fillPrice opens s) - fillCost costBps opens s d +
        ((fillNames s d).map ((fillOf costBps opens s d).shortfall s)).sum := by
  let f := fillOf costBps opens s d
  have hvalue : (fillBasket costBps opens s d).value (fillPrice opens s) =
      s.value (fillPrice opens s) +
        ((fillNames s d).map fun name => f.shortfall s name - f.costOf s name).sum := by
    refine BasketFill.foldl_trade (f := f) (F := fun s' => s'.value (fillPrice opens s))
      (t := fun s name => f.shortfall s name - f.costOf s name) ?_ ?_ (nodup_fillNames s d) s
    · intro s' name
      have hstep := BasketFill.value_trade f s' name (fillPrice opens s)
        (fun price h => ⟨?_, hprice name price h⟩)
      · linarith
      · rw [fillPrice, show opens name = some price from h, Option.getD_some]
    · intro s' name other h
      simp only [BasketFill.costOf, BasketFill.shortfall, BasketFill.dealt_trade h]
  have hsplit : ∀ names : List String,
      (names.map fun name => f.shortfall s name - f.costOf s name).sum =
        (names.map (f.shortfall s)).sum - (names.map (f.costOf s)).sum := by
    intro names
    induction names with
    | nil => simp
    | cons name rest ih =>
      simp only [List.map_cons, List.sum_cons, ih]
      ring
  rw [hvalue, hsplit, fillCost]
  ring

/-- What a fill should do: the portfolio pays the cost and nothing else, the fees record it, and
cash goes below zero by no more than it, so that no more is invested than the equity. -/
structure FillSound : Prop where
  selfFinanced : (fillBasket costBps opens s d).value (fillPrice opens s) =
    s.value (fillPrice opens s) - fillCost costBps opens s d
  charged : (fillBasket costBps opens s d).fees = s.fees + fillCost costBps opens s d
  covered : -fillCost costBps opens s d ≤ (fillBasket costBps opens s d).cash
  unlevered : ((fillBasket costBps opens s d).units.sum fun name held =>
    held * fillPrice opens s name) ≤ equityOpen opens s d

/-- What a fill leaves alone fits beside what it buys. -/
structure FillFits : Prop where
  solvent : 0 ≤ equityOpen opens s d
  fits : untouchedValue costBps opens s d ≤
    equityOpen opens s d * (1 - tradedWeight costBps opens s d)

/-- Positions and marks are positive. -/
structure Basket.Sane (s : Basket) : Prop where
  units_pos : ∀ name held, s.units.get? name = some held → 0 < held
  mark_pos : ∀ name price, s.lastMark.get? name = some price → 0 < price

variable {opens s}

theorem held_nonneg (h : s.Sane) (name : String) : 0 ≤ s.held name := by
  rw [Basket.held]
  cases hunits : s.units.get? name with
  | none => exact le_rfl
  | some held => exact (h.units_pos name held hunits).le

theorem fillPrice_nonneg (h : s.Sane) (hprice : ∀ name price, opens name = some price → 0 < price)
    (name : String) : 0 ≤ fillPrice opens s name := by
  rw [fillPrice]
  cases hopen : opens name with
  | some price => exact (hprice name price hopen).le
  | none =>
    rw [Option.getD_none, Basket.mark]
    cases hmark : s.lastMark.get? name with
    | none => exact le_rfl
    | some price => exact (h.mark_pos name price hmark).le

theorem untouchedValue_nonneg (costBps : ℚ) (d : RebalanceDecision) (h : s.Sane)
    (hprice : ∀ name price, opens name = some price → 0 < price) :
    0 ≤ untouchedValue costBps opens s d := by
  refine List.sum_nonneg fun v hv => ?_
  obtain ⟨name, -, rfl⟩ := List.mem_map.mp hv
  split_ifs
  · exact mul_nonneg (held_nonneg h name) (fillPrice_nonneg h hprice name)
  · exact le_rfl

variable {costBps d}

/-- Nothing is credited exactly when no traded name has a target below zero. -/
theorem sum_shortfall_eq_zero_iff :
    ((fillNames s d).map ((fillOf costBps opens s d).shortfall s)).sum = 0 ↔
      ∀ name ∈ fillNames s d, (fillOf costBps opens s d).dealt s name ≠ none →
        0 ≤ (fillOf costBps opens s d).target name := by
  have hnonneg : ∀ v ∈ (fillNames s d).map ((fillOf costBps opens s d).shortfall s), 0 ≤ v := by
    intro v hv
    obtain ⟨name, -, rfl⟩ := List.mem_map.mp hv
    rw [BasketFill.shortfall]
    split_ifs
    · exact le_max_right _ _
    · exact le_rfl
  constructor
  · intro hsum name hname hdealt
    have hzero := List.all_zero_of_le_zero_le_of_sum_eq_zero hnonneg hsum
      (List.mem_map_of_mem hname)
    rw [BasketFill.shortfall, if_pos (Option.isSome_iff_ne_none.mpr hdealt)] at hzero
    have hle : -(fillOf costBps opens s d).target name ≤ 0 := hzero ▸ le_max_left _ _
    linarith
  · intro h
    refine List.sum_eq_zero fun v hv => ?_
    obtain ⟨name, hname, rfl⟩ := List.mem_map.mp hv
    rw [BasketFill.shortfall]
    split_ifs with hdealt
    · exact max_eq_right (neg_nonpos.mpr (h name hname (Option.isSome_iff_ne_none.mp hdealt)))
    · rfl

/-- **A fill is self-financing and not levered** exactly when the equity is not negative and what
the fill leaves alone fits beside what it buys. -/
theorem fillSound_iff (h : s.Sane) (hprice : ∀ name price, opens name = some price → 0 < price)
    (hweights : ∀ name weight, d.weights.get? name = some weight → 0 ≤ weight) :
    FillSound costBps opens s d ↔ FillFits costBps opens s d := by
  have hvalue := value_fillBasket costBps opens s d hprice
  have hcash := cash_fillBasket costBps opens s d
  have hequity := equityOpen_eq_value opens s d
  have hweight : ∀ name, 0 ≤ (d.weights.get? name).getD 0 := by
    intro name
    cases hw : d.weights.get? name with
    | none => exact le_rfl
    | some weight => exact hweights name weight hw
  constructor
  · intro hsound
    have hfinanced := hsound.selfFinanced
    have hcovered := hsound.covered
    have hshort := sum_shortfall_eq_zero_iff.mp (by linarith)
    have hsolvent : 0 ≤ equityOpen opens s d := by
      by_contra hneg
      -- a name that is traded has no weight, so nothing is bought
      have hzero : tradedWeight costBps opens s d = 0 := by
        refine List.sum_eq_zero fun v hv => ?_
        obtain ⟨name, hname, rfl⟩ := List.mem_map.mp hv
        split_ifs with hdealt
        · rfl
        · have htarget : 0 ≤ (d.weights.get? name).getD 0 * equityOpen opens s d :=
            hshort name hname hdealt
          by_contra hne
          have hpos := lt_of_le_of_ne (hweight name) (Ne.symm hne)
          exact absurd htarget (not_le.mpr (mul_neg_of_pos_of_neg hpos (not_le.mp hneg)))
      rw [hzero] at hcash
      have huntouched := untouchedValue_nonneg costBps d h hprice
      linarith [not_le.mp hneg]
    exact ⟨hsolvent, by linarith⟩
  · intro hfits
    have hsolvent := hfits.solvent
    have hroom := hfits.fits
    have hshort : ((fillNames s d).map ((fillOf costBps opens s d).shortfall s)).sum = 0 :=
      sum_shortfall_eq_zero_iff.mpr fun name _ _ => mul_nonneg (hweight name) hfits.solvent
    have hfinanced : (fillBasket costBps opens s d).value (fillPrice opens s) =
        s.value (fillPrice opens s) - fillCost costBps opens s d := by
      linarith
    refine ⟨hfinanced, fees_fillBasket costBps opens s d, by linarith, ?_⟩
    rw [Basket.value] at hfinanced
    linarith

/-- Where every name has an open price and the weights add up to at most one, only the tolerance
of a trade is missing. -/
theorem untouchedValue_le (hsolvent : 0 ≤ equityOpen opens s d)
    (hpriced : ∀ name ∈ fillNames s d, opens name ≠ none)
    (hweights : (d.weights.sum fun _ weight => weight) ≤ 1) :
    untouchedValue costBps opens s d ≤
      equityOpen opens s d * (1 - tradedWeight costBps opens s d) +
        (fillNames s d).length / 10 ^ 12 := by
  let f := fillOf costBps opens s d
  have hkeys := Dict.sum_eq_sum_keys d.weights (fun _ weight => weight) (nodup_fillNames s d)
    fun name h => (mem_fillNames s d).mpr (Or.inr h)
  have hname : ∀ name ∈ fillNames s d,
      (if f.dealt s name = none then s.held name * fillPrice opens s name else 0) ≤
        equityOpen opens s d * ((d.weights.get? name).elim 0 (fun weight => weight) -
          (if f.dealt s name = none then 0 else (d.weights.get? name).getD 0)) + 1 / 10 ^ 12 := by
    intro name hmem
    have hgetD : (d.weights.get? name).elim 0 (fun weight => weight) =
        (d.weights.get? name).getD 0 := by
      cases d.weights.get? name <;> rfl
    cases hdealt : f.dealt s name with
    | some delta => simp [hgetD]
    | none =>
      obtain ⟨price, hprice⟩ := Option.ne_none_iff_exists'.mp (hpriced name hmem)
      have hsmall : |f.delta (s.held name) price name| ≤ 1 / 10 ^ 12 := by
        by_contra hlarge
        rw [BasketFill.dealt, show f.price name = some price from hprice, Option.bind_some]
          at hdealt
        dsimp only at hdealt
        rw [if_neg hlarge] at hdealt
        cases hdealt
      have hlow := (abs_le.mp hsmall).1
      have hfill : fillPrice opens s name = price := by
        rw [fillPrice, hprice, Option.getD_some]
      rw [if_pos rfl, if_pos rfl, hgetD, hfill]
      rw [BasketFill.delta, BasketFill.target] at hlow
      have htarget : f.weight name * f.equityOpen =
          (d.weights.get? name).getD 0 * equityOpen opens s d := rfl
      linarith
  have hsum : ∀ names : List String, (∀ name ∈ names, name ∈ fillNames s d) →
      (names.map fun name =>
        if f.dealt s name = none then s.held name * fillPrice opens s name else 0).sum ≤
        equityOpen opens s d * ((names.map fun name =>
            (d.weights.get? name).elim 0 fun weight => weight).sum -
          (names.map fun name =>
            if f.dealt s name = none then 0 else (d.weights.get? name).getD 0).sum) +
          names.length / 10 ^ 12 := by
    intro names hnames
    induction names with
    | nil => simp
    | cons name rest ih =>
      have hhead := hname name (hnames name List.mem_cons_self)
      have htail := ih fun name h => hnames name (List.mem_cons_of_mem _ h)
      simp only [List.map_cons, List.sum_cons, List.length_cons]
      push_cast
      linarith
  have hall := hsum _ fun _ h => h
  rw [← hkeys] at hall
  have hroom : equityOpen opens s d * (d.weights.sum fun _ weight => weight) ≤
      equityOpen opens s d := mul_le_of_le_one_right hsolvent hweights
  rw [untouchedValue, tradedWeight]
  linarith

end OneFill

/-! ## Runs -/

theorem positiveSeries_pos {price : Candle → ℚ} {candles : List Candle} {day : Time} {p : ℚ}
    (h : (positiveSeries price candles).get? day = some p) : 0 < p := by
  obtain ⟨c, hc, hpair⟩ := List.mem_map.mp (Dict.mem_of_get?_ofList h)
  have hpos := (List.mem_filter.mp hc).2
  cases hpair
  exact of_decide_eq_true hpos

/-- Every price of the market tables is positive. -/
theorem tableLookup_pos {price : Candle → ℚ} {histories : Dict String (List Candle)} {day : Time}
    {name : String} {p : ℚ} (h : tableLookup (seriesByName price histories) day name = some p) :
    0 < p := by
  obtain ⟨series, hseries, hp⟩ := Option.bind_eq_some_iff.mp h
  obtain ⟨e, -, he⟩ := List.mem_filterMap.mp (Dict.mem_of_get?_ofList hseries)
  dsimp only at he
  split_ifs at he
  cases he
  exact positiveSeries_pos hp

namespace BasketFill

theorem sane_trade {f : BasketFill} {s : Basket} (h : s.Sane)
    (hprice : ∀ name price, f.price name = some price → 0 < price) (name : String) :
    (f.trade s name).Sane := by
  unfold trade
  cases hname : f.price name with
  | none => exact ⟨h.units_pos, h.mark_pos⟩
  | some price =>
    have hpos := hprice name price hname
    dsimp only
    split
    · exact h
    · split
      · exact ⟨fun other held hheld => h.units_pos other held (Dict.get?_of_erase hheld),
          h.mark_pos⟩
      · rename_i htarget
        constructor
        · intro other held hheld
          dsimp only at hheld
          rw [Dict.get?_set] at hheld
          split_ifs at hheld
          · exact Option.some.inj hheld ▸ div_pos (not_le.mp htarget) hpos
          · exact h.units_pos other held hheld
        · intro other mark hmark
          dsimp only at hmark
          rw [Dict.get?_set] at hmark
          split_ifs at hmark
          · exact Option.some.inj hmark ▸ hpos
          · exact h.mark_pos other mark hmark

end BasketFill

theorem sane_fillBasket {costBps : ℚ} {opens : String → Option ℚ} {s : Basket}
    (h : s.Sane) (hprice : ∀ name price, opens name = some price → 0 < price)
    (d : RebalanceDecision) : (fillBasket costBps opens s d).Sane := by
  have hfold : ∀ (names : List String) (s' : Basket), s'.Sane →
      (names.foldl (fillOf costBps opens s d).trade s').Sane := by
    intro names
    induction names with
    | nil => exact fun _ h => h
    | cons name rest ih => exact fun s' h' => ih _ (BasketFill.sane_trade h' hprice name)
  have hlast := hfold (fillNames s d) s h
  exact ⟨hlast.units_pos, hlast.mark_pos⟩

/-- Marking a name leaves cash, units, fees and the pending decision. -/
theorem markDay_frame (closes : String → Option ℚ) (s : Basket) :
    (markDay closes s).units = s.units ∧ (markDay closes s).pending = s.pending ∧
      (markDay closes s).fees = s.fees := by
  have hfold : ∀ (entries : List (String × ℚ)) (acc : ℚ × Basket),
      (entries.foldl (markName closes) acc).2.units = acc.2.units ∧
        (entries.foldl (markName closes) acc).2.pending = acc.2.pending ∧
        (entries.foldl (markName closes) acc).2.fees = acc.2.fees := by
    intro entries
    induction entries with
    | nil => exact fun _ => ⟨rfl, rfl, rfl⟩
    | cons e rest ih =>
      intro acc
      have hstep : (markName closes acc e).2.units = acc.2.units ∧
          (markName closes acc e).2.pending = acc.2.pending ∧
          (markName closes acc e).2.fees = acc.2.fees := by
        unfold markName
        cases closes e.1 <;> exact ⟨rfl, rfl, rfl⟩
      obtain ⟨hunits, hpending, hfees⟩ := ih (markName closes acc e)
      exact ⟨hunits.trans hstep.1, hpending.trans hstep.2.1, hfees.trans hstep.2.2⟩
  exact hfold s.units.entries (s.cash, s)

theorem sane_markDay {closes : String → Option ℚ} {s : Basket} (h : s.Sane)
    (hprice : ∀ name price, closes name = some price → 0 < price) : (markDay closes s).Sane := by
  have hfold : ∀ (entries : List (String × ℚ)) (acc : ℚ × Basket),
      (∀ name price, acc.2.lastMark.get? name = some price → 0 < price) →
        ∀ name price, (entries.foldl (markName closes) acc).2.lastMark.get? name = some price →
          0 < price := by
    intro entries
    induction entries with
    | nil => exact fun _ h => h
    | cons e rest ih =>
      intro acc hacc
      refine ih _ fun name price hmark => ?_
      unfold markName at hmark
      cases hclose : closes e.1 with
      | none =>
        rw [hclose] at hmark
        exact hacc name price hmark
      | some close =>
        rw [hclose] at hmark
        dsimp only at hmark
        rw [Dict.get?_set] at hmark
        split_ifs at hmark
        · exact Option.some.inj hmark ▸ hprice e.1 close hclose
        · exact hacc name price hmark
  refine ⟨?_, hfold s.units.entries (s.cash, s) h.mark_pos⟩
  rw [(markDay_frame closes s).1]
  exact h.units_pos

namespace BasketInput

/-- What holds before every day: positions and marks are positive, and the pending decision is one
of the decisions. -/
structure Ready (i : BasketInput) (s : Basket) : Prop where
  sane : s.Sane
  pending : ∀ d, s.pending = some d → d ∈ i.decisions

/-- The tables hold positive prices only. -/
structure Priced (i : BasketInput) : Prop where
  opens : ∀ day name price, tableLookup i.tables.opens day name = some price → 0 < price
  closes : ∀ day name price, tableLookup i.tables.closes day name = some price → 0 < price

variable {i : BasketInput}

theorem ready_start (startingEquity : ℚ) (first : Time) :
    i.Ready (i.start startingEquity first) := by
  refine ⟨⟨fun name held h => ?_, fun name price h => ?_⟩, fun d h => ?_⟩
  · cases h
  · cases h
  · exact (List.mem_filter.mp (List.argmax_mem h)).1

theorem ready_stepDay (hprices : i.Priced) (s : Basket) (day : Time) (h : i.Ready s) :
    i.Ready (i.stepDay s day) := by
  -- the fill, the mark and the decision, in turn
  have hfilled : i.Ready (i.filled s day) := by
    unfold filled
    split
    · exact h
    · rename_i d hd
      refine ⟨sane_fillBasket h.sane (hprices.opens day) d, fun d' hd' => ?_⟩
      cases hd'
  have hmarked : i.Ready (markDay (tableLookup i.tables.closes day) (i.filled s day)) := by
    refine ⟨sane_markDay hfilled.sane (hprices.closes day), ?_⟩
    rw [(markDay_frame _ _).2.1]
    exact hfilled.pending
  unfold stepDay decided
  split
  · exact hmarked
  · rename_i d hd
    refine ⟨⟨hmarked.sane.units_pos, hmarked.sane.mark_pos⟩, fun d' hd' => ?_⟩
    obtain ⟨d'', hd'', hpair⟩ := List.mem_map.mp (Dict.mem_of_get?_ofList hd)
    cases hpair
    cases hd'
    exact hd''

/-- What a day's fill charges. -/
def charged (i : BasketInput) (s : Basket) (day : Time) : ℚ :=
  match s.pending with
  | none => 0
  | some d => fillCost i.costBps (tableLookup i.tables.opens day) s d

/-- The charges of a run, day by day. -/
def charges (i : BasketInput) : Basket → List Time → List ℚ
  | _, [] => []
  | s, day :: days => i.charged s day :: charges i (i.stepDay s day) days

theorem fees_stepDay (s : Basket) (day : Time) :
    (i.stepDay s day).fees = s.fees + i.charged s day := by
  have hdecided : ∀ s' : Basket, (i.decided s' day).fees = s'.fees := by
    intro s'
    unfold decided
    split <;> rfl
  rw [stepDay, hdecided, (markDay_frame _ _).2.2, filled, charged]
  cases s.pending with
  | none => exact (add_zero s.fees).symm
  | some d => exact fees_fillBasket _ _ _ _

/-- The fees of a run are the costs of its fills. -/
theorem fees_run (s : Basket) (days : List Time) :
    (run i.stepDay s days).fees = s.fees + (i.charges s days).sum := by
  induction days generalizing s with
  | nil => exact (add_zero s.fees).symm
  | cons day days ih =>
    rw [run_cons, ih, fees_stepDay, charges, List.sum_cons, add_assoc]

end BasketInput

/-! ## Delisted while held -/

namespace Delisted

/-- A daily bar at a price of one dollar. -/
def bar (symbol : String) (day : ℤ) : Candle where
  symbol := symbol
  interval := "1d"
  openedAt := 86400 * day
  openPrice := 1
  high := 1
  low := 1
  close := 1
  volume := 1
  open_pos := unit_pos
  high_pos := unit_pos
  low_pos := unit_pos
  close_pos := unit_pos
  volume_nonneg := unit_nonneg
  high_contains := unit_high
  low_contains := unit_low

/-- The first name has no bar on the third day. -/
def histories : Dict String (List Candle) :=
  Dict.ofList [("a", [0, 1].map (bar "ADA/USD")), ("b", [0, 1, 2].map (bar "BTC/USD"))]

def allFirst : RebalanceDecision := ⟨0, Dict.ofList [("ADA/USD", 1)]⟩

def allSecond : RebalanceDecision := ⟨86400, Dict.ofList [("BTC/USD", 1)]⟩

/-- All in the first name, and a day later all in the second. -/
def decisions : List RebalanceDecision := [allFirst, allSecond]

def input : BasketInput := ⟨marketTables histories, decisions, 0⟩

def days : List Time := [0, 86400, 172800]

theorem windowDays_eq : windowDays input.tables.calendar none none = days := by decide +kernel

/-- The state before a day. -/
def before (k : ℕ) : Basket := run input.stepDay (input.start 1 0) (days.take k)

theorem weights_nonneg : ∀ d ∈ decisions, ∀ name weight,
    d.weights.get? name = some weight → 0 ≤ weight := by
  intro d hd name weight h
  have hall : ∀ d ∈ decisions, ∀ e ∈ d.weights.entries, 0 ≤ e.2 := by decide +kernel
  exact hall d hd (name, weight) (Dict.mem_entries_iff.mpr h)

end Delisted

open Delisted in
/-- The first name stays in the portfolio and the second is bought on the whole equity: without
any cost, all of the equity is borrowed. -/
theorem delisted_name_levers :
    (before 2).pending = some allSecond ∧
      equityOpen (tableLookup input.tables.opens 172800) (before 2) allSecond = 1 ∧
      fillCost 0 (tableLookup input.tables.opens 172800) (before 2) allSecond = 0 ∧
      (fillBasket 0 (tableLookup input.tables.opens 172800) (before 2) allSecond).cash = -1 ∧
      ¬FillSound 0 (tableLookup input.tables.opens 172800) (before 2) allSecond := by
  have hcash : (fillBasket 0 (tableLookup input.tables.opens 172800) (before 2) allSecond).cash =
      -1 := by decide +kernel
  have hcost : fillCost 0 (tableLookup input.tables.opens 172800) (before 2) allSecond = 0 := by
    decide +kernel
  refine ⟨by decide +kernel, by decide +kernel, hcost, hcash, fun hsound => ?_⟩
  have hcovered := hsound.covered
  rw [hcash, hcost] at hcovered
  exact absurd hcovered (by norm_num)

/-- **The basket simulator**: a fill of a run is self-financing and not levered exactly when the
equity is not negative and what the fill leaves alone fits beside what it buys, and the fees of
the run are the costs of its fills. -/
theorem basket_selfFinancing_iff (histories : Dict String (List Candle))
    (decisions : List RebalanceDecision)
    (hweights : ∀ d ∈ decisions, ∀ name weight, d.weights.get? name = some weight → 0 ≤ weight)
    (costBps startingEquity : ℚ) (start stop : Option Time) (first : Time) (rest : List Time)
    (hdays : windowDays (marketTables histories).calendar start stop = first :: rest) :
    let i : BasketInput := ⟨marketTables histories, decisions, costBps⟩
    let s₀ := i.start startingEquity first
    (∀ before day after d, first :: rest = before ++ day :: after →
      (run i.stepDay s₀ before).pending = some d →
        let opens := tableLookup i.tables.opens day
        let s := run i.stepDay s₀ before
        FillSound costBps opens s d ↔ FillFits costBps opens s d) ∧
    ∀ r, runBasket histories decisions costBps startingEquity start stop = .ok (some r) →
      r.fees = (i.charges s₀ (first :: rest)).sum := by
  intro i s₀
  constructor
  · intro before day after d _ hpending opens s
    have hprices : i.Priced :=
      ⟨fun _ _ _ h => tableLookup_pos h, fun _ _ _ h => tableLookup_pos h⟩
    have hready : i.Ready s :=
      run_invariant (BasketInput.ready_stepDay hprices) s₀ before
        (BasketInput.ready_start startingEquity first)
    exact fillSound_iff hready.sane (hprices.opens day) (hweights d (hready.pending d hpending))
  · intro r hr
    unfold runBasket at hr
    split_ifs at hr
    dsimp only at hr
    rw [hdays] at hr
    cases rest with
    | nil => cases hr
    | cons second rest =>
      cases hr
      exact (BasketInput.fees_run s₀ (first :: second :: rest)).trans (zero_add _)

open Delisted in
/-- The first fill, on a day when both names open, keeps the portfolio's value. -/
theorem basket_selfFinancing_first :
    (before 1).pending = some allFirst ∧
      FillSound 0 (tableLookup input.tables.opens 86400) (before 1) allFirst :=
  ⟨by decide +kernel, ((basket_selfFinancing_iff histories decisions weights_nonneg 0 1 none none 0
    [86400, 172800] windowDays_eq).1 [0] 86400 [172800] allFirst rfl (by decide +kernel)).mpr
      ⟨by decide +kernel, by decide +kernel⟩⟩

end TraderStack
