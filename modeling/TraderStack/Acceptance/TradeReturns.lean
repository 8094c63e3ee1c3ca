import TraderStack.Acceptance.Replay
import TraderStack.Lib.Fifo

/-!
# Paper trades against the equity curve

The replay's lots and trades are those of first-in-first-out matching at the replay's
tolerance, each with its price and its fee per unit. The curve moves by what was bought,
sold and paid in fees; the trades by what was paired. The two agree on quantities and
fees up to what the matching leaves behind, but a trade's return is the price's alone,
while the curve is net of every fee.

- `Replayed.event`, `Replayed.events`: what the replay keeps;
- `trade_returns_reconcile_iff`: trades and curve reconcile exactly when nothing is left
  behind and the fees come to nothing.
-/

namespace TraderStack

open Lib

/-! ## The matching -/

/-- The terms of a lot or a sale: its price and its fee per unit. -/
structure Terms where
  priceUsd : ℚ
  unitFee : ℚ
deriving DecidableEq

def PaperFill.terms (feeBps : ℚ) (f : PaperFill) : Terms :=
  ⟨f.priceUsd, f.charge feeBps / f.quantity⟩

/-- Match one fill. -/
def matchFill (feeBps : ℚ) (b : FifoBook Terms ℚ) (f : PaperFill) : FifoBook Terms ℚ :=
  match f.side with
  | .buy => b.buy (f.terms feeBps) f.quantity
  | .sell => b.sell lotTolerance (f.terms feeBps) f.quantity

/-- The fill of an event, if it is one. -/
def ReplayEvent.fill? : ReplayEvent → Option PaperFill
  | .fill f => some f
  | .mark _ => none

/-- The price of an event. -/
def ReplayEvent.priceUsd : ReplayEvent → ℚ
  | .fill f => f.priceUsd
  | .mark m => m.priceUsd

/-- The fills in the order they are replayed. -/
def replayedFills (marks : List MarkPoint) (fills : List PaperFill) : List PaperFill :=
  (replayEvents marks fills).filterMap ReplayEvent.fill?

/-- The price of the last event. -/
def closingPrice (marks : List MarkPoint) (fills : List PaperFill) : ℚ :=
  ((replayEvents marks fills).getLast?.map ReplayEvent.priceUsd).getD 0

/-- The fills matched, and what is then held sold at the closing price without a fee. -/
def matchedBook (marks : List MarkPoint) (fills : List PaperFill) (feeBps : ℚ) :
    FifoBook Terms ℚ :=
  let book := (replayedFills marks fills).foldl (matchFill feeBps) .empty
  book.sell lotTolerance ⟨closingPrice marks fills, 0⟩ (weigh (fun _ => 1) book.held)

/-! ## What is claimed, and when it holds -/

/-- The quantity a trade matched: its notional at its entry price. -/
def BacktestTrade.matchedQuantity (t : BacktestTrade) : ℚ := t.notionalUsd / t.entryPrice

/-- What the buys come to. -/
def boughtQuantity (fills : List PaperFill) : ℚ :=
  ((fills.filter fun f => f.side = .buy).map PaperFill.quantity).sum

/-- The trades of a run reconcile with its curve, its fees and its buys. -/
structure Reconciles (fills : List PaperFill) (run : PaperRun) : Prop where
  returns : (run.trades.map fun t => t.notionalUsd * t.returnPct).sum
    = run.endingEquity - run.startingEquity
  fees : (run.trades.map BacktestTrade.feesPaid).sum = run.totalFees
  quantity : (run.trades.map BacktestTrade.matchedQuantity).sum = boughtQuantity fills

/-- Nothing is left behind by the matching, except sales' ends that carry no fee, and these
make up for all fees at the closing price. -/
structure Squares (marks : List MarkPoint) (fills : List PaperFill) (feeBps : ℚ) : Prop where
  held : (matchedBook marks fills feeBps).held = []
  dropped : ∀ p ∈ (matchedBook marks fills feeBps).dropped, p.2 = 0
  unmetFees : weigh Terms.unitFee (matchedBook marks fills feeBps).unmet = 0
  fees : (fills.map fun f => f.charge feeBps).sum
    = weigh (fun t => t.priceUsd - closingPrice marks fills) (matchedBook marks fills feeBps).unmet

/-! ## Closing lots is drawing from them -/

/-- A lot of the replay, as the matching has it. -/
structure LotOf (lot : PaperLot) (p : Terms × ℚ) : Prop where
  quantity : lot.quantity = p.2
  priceUsd : lot.priceUsd = p.1.priceUsd
  feeUsd : lot.feeUsd = p.2 * p.1.unitFee

/-- A trade of the replay, as the matching has it. -/
structure TradeOf (trade : BacktestTrade) (p : (Terms × Terms) × ℚ) : Prop where
  entryPrice : trade.entryPrice = p.1.1.priceUsd
  notionalUsd : trade.notionalUsd = p.2 * p.1.1.priceUsd
  returnPct : trade.returnPct = p.1.2.priceUsd / p.1.1.priceUsd - 1
  feesPaid : trade.feesPaid = p.2 * p.1.1.unitFee + p.2 * p.1.2.unitFee

theorem PaperLot.less_of {lot : PaperLot} {p : Terms × ℚ} (h : LotOf lot p) {matched : ℚ}
    (hstay : ¬lot.quantity - lotTolerance ≤ matched) :
    LotOf (lot.less matched hstay) (p.1, p.2 - matched) where
  quantity := by
    show lot.quantity - matched = p.2 - matched
    rw [h.quantity]
  priceUsd := h.priceUsd
  feeUsd := by
    show lot.feeUsd - lot.feeUsd * (matched / lot.quantity) = (p.2 - matched) * p.1.unitFee
    have hq : p.2 ≠ 0 := h.quantity ▸ lot.quantity_pos.ne'
    rw [h.feeUsd, h.quantity]
    field_simp

theorem matchedTrade_of {exit : PaperFill} {ids : Dict String (List String)} {lot : PaperLot}
    {remaining exitFee : ℚ} {h : ¬remaining ≤ lotTolerance} {trade : BacktestTrade} {p : Terms × ℚ}
    {t : Terms} (hlot : LotOf lot p) (hprice : exit.priceUsd = t.priceUsd)
    (hfee : exitFee = remaining * t.unitFee)
    (hok : matchedTrade exit ids lot remaining exitFee h = .ok trade) :
    TradeOf trade ((p.1, t), min p.2 remaining) := by
  have hq : p.2 ≠ 0 := hlot.quantity ▸ lot.quantity_pos.ne'
  have hr : remaining ≠ 0 := (lotTolerance_nonneg.trans_lt (not_le.mp h)).ne'
  unfold matchedTrade at hok
  dsimp only at hok
  split at hok
  · rw [← Except.ok.inj hok]
    constructor
    · exact hlot.priceUsd
    · show min lot.quantity remaining * lot.priceUsd = _
      rw [hlot.quantity, hlot.priceUsd]
    · show exit.priceUsd / lot.priceUsd - 1 = _
      rw [hprice, hlot.priceUsd]
    · show lot.feeUsd * (min lot.quantity remaining / lot.quantity)
        + exitFee * (min lot.quantity remaining / remaining) = _
      rw [hlot.feeUsd, hlot.quantity, hfee]
      field_simp
  · cases hok

/-- **Closing lots is drawing from them**: the trades are what was taken, and the lots left
what is still held. -/
theorem closeLots_of {exit : PaperFill} {ids : Dict String (List String)} {t : Terms}
    (hprice : exit.priceUsd = t.priceUsd) {lots : List PaperLot} {held : List (Terms × ℚ)}
    (hlots : List.Forall₂ LotOf lots held) {remaining exitFee : ℚ}
    (hfee : exitFee = remaining * t.unitFee) {trades : List BacktestTrade} {left : List PaperLot}
    (hok : closeLots exit ids lots remaining exitFee = .ok (trades, left)) :
    List.Forall₂ LotOf left (draw lotTolerance held remaining).held ∧
      List.Forall₂ TradeOf trades
        ((draw lotTolerance held remaining).taken.map fun p => ((p.1, t), p.2)) := by
  induction hlots generalizing remaining exitFee trades left with
  | nil =>
    cases hok
    exact ⟨.nil, .nil⟩
  | @cons lot p lots held hlot hlots ih =>
    obtain ⟨a, q⟩ := p
    have hquantity : lot.quantity = q := hlot.quantity
    simp only [closeLots] at hok
    simp only [draw]
    split at hok
    · rename_i hdone
      cases hok
      rw [if_pos hdone]
      exact ⟨.cons hlot hlots, .nil⟩
    rename_i hmore
    rw [if_neg hmore]
    split at hok
    · cases hok
    rename_i trade htrade
    have hpaired := matchedTrade_of hlot hprice hfee htrade
    have hr : remaining ≠ 0 := (lotTolerance_nonneg.trans_lt (not_le.mp hmore)).ne'
    split at hok
    · rename_i hpop
      split at hok
      · cases hok
      rename_i rest left' hrest
      cases hok
      rw [hquantity] at hpop hrest
      have hnext : exitFee - exitFee * (min q remaining / remaining)
          = (remaining - min q remaining) * t.unitFee := by
        rw [hfee]
        field_simp
      obtain ⟨hheld, htrades⟩ := ih hnext hrest
      rw [if_pos hpop]
      exact ⟨hheld, .cons hpaired htrades⟩
    · rename_i hstay
      cases hok
      have hmatched : min lot.quantity remaining = min q remaining := by rw [hquantity]
      have hless : LotOf _ (a, q - min lot.quantity remaining) := PaperLot.less_of hlot hstay
      rw [if_neg (hquantity ▸ hstay), ← hmatched]
      rw [← hmatched] at hpaired
      exact ⟨.cons hless hlots, .cons hpaired .nil⟩

/-! ## What the replay keeps -/

/-- A replay and the matching of the fills it has replayed. -/
structure Replayed (feeBps startingEquity : ℚ) (fills : List PaperFill) (s : ReplayState)
    (b : FifoBook Terms ℚ) : Prop where
  lots : List.Forall₂ LotOf s.lots b.held
  trades : List.Forall₂ TradeOf s.run.trades b.pairs
  starting : s.run.startingEquity = startingEquity
  totalFees : s.run.totalFees = (fills.map fun f => f.charge feeBps).sum
  unitFees : b.bought Terms.unitFee + b.sold Terms.unitFee = s.run.totalFees
  cash : s.cash = startingEquity + b.sold Terms.priceUsd - b.bought Terms.priceUsd
    - s.run.totalFees
  quantity : s.quantity = b.bought (fun _ => 1) - b.sold fun _ => 1
  bought : b.bought (fun _ => 1) = boughtQuantity fills
  sound : b.Sound

theorem PaperFill.quantity_mul_unitFee (f : PaperFill) (feeBps : ℚ) :
    f.quantity * (f.terms feeBps).unitFee = f.charge feeBps :=
  mul_div_cancel₀ _ f.quantity_pos.ne'

theorem boughtQuantity_append (fills : List PaperFill) (f : PaperFill) :
    boughtQuantity (fills ++ [f])
      = boughtQuantity fills + if f.side = .buy then f.quantity else 0 := by
  unfold boughtQuantity
  rw [List.filter_append, List.map_append, List.sum_append]
  by_cases hside : f.side = .buy
  · simp [hside]
  · simp [hside]

variable {feeBps startingEquity : ℚ} {fills : List PaperFill} {s s' : ReplayState}
  {b : FifoBook Terms ℚ} {ids : Dict String (List String)}

theorem Replayed.start (marks : List MarkPoint) (feeBps startingEquity : ℚ) :
    Replayed feeBps startingEquity [] (ReplayState.start marks startingEquity) .empty where
  lots := .nil
  trades := .nil
  starting := rfl
  totalFees := rfl
  unitFees := by simp [ReplayState.start]
  cash := by simp [ReplayState.start]
  quantity := by simp [ReplayState.start]
  bought := by simp [boughtQuantity]
  sound := .empty

theorem Replayed.marked (h : Replayed feeBps startingEquity fills s b) (m : MarkPoint) :
    Replayed feeBps startingEquity fills (s.marked m) b :=
  { h with }

theorem Replayed.buy (h : Replayed feeBps startingEquity fills s b) {f : PaperFill}
    (hside : f.side = .buy) :
    Replayed feeBps startingEquity (fills ++ [f])
      ((s.charged f (f.charge feeBps)).bought f (f.charge feeBps))
      (b.buy (f.terms feeBps) f.quantity) where
  lots := by
    refine List.rel_append h.lots (.cons ⟨rfl, rfl, ?_⟩ .nil)
    exact (f.quantity_mul_unitFee feeBps).symm
  trades := h.trades
  starting := h.starting
  totalFees := by
    show s.run.totalFees + f.charge feeBps = _
    rw [h.totalFees, List.map_append, List.sum_append]
    simp
  unitFees := by
    show _ = s.run.totalFees + f.charge feeBps
    rw [FifoBook.bought_buy, FifoBook.sold_buy, f.quantity_mul_unitFee, ← h.unitFees]
    ring
  cash := by
    show s.cash - f.charge feeBps - f.quantity * f.priceUsd = startingEquity + _ - _
      - (s.run.totalFees + f.charge feeBps)
    rw [FifoBook.bought_buy, FifoBook.sold_buy, h.cash]
    show _ = startingEquity + _ - (_ + f.quantity * f.priceUsd) - _
    ring
  quantity := by
    show s.quantity + f.quantity = _
    rw [FifoBook.bought_buy, FifoBook.sold_buy, h.quantity]
    ring
  bought := by
    rw [FifoBook.bought_buy, boughtQuantity_append, if_pos hside, h.bought, mul_one]
  sound := h.sound.buy f.quantity_pos

/-- What closing lots does to a replay that has charged the sale already. -/
theorem close_of {f : PaperFill} {t : Terms} {fee : ℚ} (hok : s.close ids f fee = .ok s')
    (hlots : List.Forall₂ LotOf s.lots b.held)
    (htrades : List.Forall₂ TradeOf s.run.trades b.pairs) (hprice : f.priceUsd = t.priceUsd)
    (hfee : fee = f.quantity * t.unitFee) :
    List.Forall₂ LotOf s'.lots (b.sell lotTolerance t f.quantity).held ∧
      List.Forall₂ TradeOf s'.run.trades (b.sell lotTolerance t f.quantity).pairs ∧
      ∃ trades left, s' = { s with run := { s.run with trades := trades }, lots := left } := by
  unfold ReplayState.close at hok
  split at hok
  · cases hok
  · rename_i trades left hclose
    cases hok
    obtain ⟨hheld, hpairs⟩ := closeLots_of hprice hlots hfee hclose
    exact ⟨hheld, List.rel_append htrades hpairs, _, _, rfl⟩

theorem Replayed.sell (h : Replayed feeBps startingEquity fills s b) {f : PaperFill}
    (hside : f.side = .sell)
    (hok : (s.charged f (f.charge feeBps)).sold ids f (f.charge feeBps) = .ok s') :
    Replayed feeBps startingEquity (fills ++ [f]) s'
      (b.sell lotTolerance (f.terms feeBps) f.quantity) := by
  unfold ReplayState.sold at hok
  obtain ⟨hlots, htrades, trades, left, rfl⟩ := close_of (t := f.terms feeBps) hok h.lots h.trades
    rfl (f.quantity_mul_unitFee feeBps).symm
  have hbuy : f.side ≠ .buy := by rw [hside]; decide
  refine ⟨hlots, htrades, h.starting, ?_, ?_, ?_, ?_, ?_, h.sound.sell lotTolerance_nonneg⟩
  · show s.run.totalFees + f.charge feeBps = _
    rw [h.totalFees, List.map_append, List.sum_append]
    simp
  · show _ = s.run.totalFees + f.charge feeBps
    rw [FifoBook.bought_sell, FifoBook.sold_sell, f.quantity_mul_unitFee, ← h.unitFees]
    ring
  · show s.cash - f.charge feeBps + f.quantity * f.priceUsd = startingEquity + _ - _
      - (s.run.totalFees + f.charge feeBps)
    rw [FifoBook.bought_sell, FifoBook.sold_sell, h.cash]
    show _ = startingEquity + (_ + f.quantity * f.priceUsd) - _ - _
    ring
  · show s.quantity - f.quantity = _
    rw [FifoBook.bought_sell, FifoBook.sold_sell, h.quantity]
    ring
  · rw [FifoBook.bought_sell, boughtQuantity_append, if_neg hbuy, h.bought, add_zero]

/-- **One event keeps the replay and the matching together.** -/
theorem Replayed.event (h : Replayed feeBps startingEquity fills s b) {e : ReplayEvent}
    (hok : s.event feeBps ids e = .ok s') :
    Replayed feeBps startingEquity (fills ++ e.fill?.toList) s'
      (e.fill?.toList.foldl (matchFill feeBps) b) := by
  cases e with
  | mark m =>
    cases hok
    rw [show (ReplayEvent.mark m).fill?.toList = [] from rfl, List.append_nil]
    exact h.marked m
  | fill f =>
    show Replayed feeBps startingEquity (fills ++ [f]) s' (matchFill feeBps b f)
    unfold ReplayState.event at hok
    dsimp only at hok
    unfold matchFill
    cases hside : f.side with
    | buy =>
      rw [hside] at hok
      cases hok
      exact h.buy hside
    | sell =>
      rw [hside] at hok
      exact h.sell hside hok

/-- **All of them do.** -/
theorem Replayed.events (h : Replayed feeBps startingEquity fills s b) {l : List ReplayEvent}
    (hok : s.events feeBps ids l = .ok s') :
    Replayed feeBps startingEquity (fills ++ l.filterMap ReplayEvent.fill?) s'
      ((l.filterMap ReplayEvent.fill?).foldl (matchFill feeBps) b) := by
  induction l generalizing s b fills with
  | nil =>
    cases hok
    simpa using h
  | cons e rest ih =>
    unfold ReplayState.events at hok
    split at hok
    · cases hok
    rename_i s₁ hevent
    have hrest := ih (h.event hevent) hok
    have hsplit : (e :: rest).filterMap ReplayEvent.fill?
        = e.fill?.toList ++ rest.filterMap ReplayEvent.fill? := by
      cases e <;> rfl
    rw [hsplit, List.foldl_append, ← List.append_assoc]
    exact hrest

/-! ## The end of the replay -/

instance : Std.Total ReplayEvent.Before where
  total e f := by
    rcases lt_trichotomy e.moment f.moment with h | h | h
    · exact .inl (.inl h)
    · rcases le_total e.rank f.rank with hr | hr
      · exact .inl (.inr ⟨h, hr⟩)
      · exact .inr (.inr ⟨h.symm, hr⟩)
    · exact .inr (.inl h)

instance : IsTrans ReplayEvent ReplayEvent.Before where
  trans e f g hef hfg := by
    rcases hef with hef | ⟨hef, hr⟩
    · rcases hfg with hfg | ⟨hfg, -⟩
      · exact .inl (hef.trans hfg)
      · exact .inl (hfg ▸ hef)
    · rcases hfg with hfg | ⟨hfg, hr'⟩
      · exact .inl (hef ▸ hfg)
      · exact .inr ⟨hef.trans hfg, hr.trans hr'⟩

theorem mem_replayEvents {marks : List MarkPoint} {fills : List PaperFill} {e : ReplayEvent} :
    e ∈ replayEvents marks fills ↔
      (∃ f ∈ fills, ReplayEvent.fill f = e) ∨ ∃ m ∈ marks, ReplayEvent.mark m = e := by
  unfold replayEvents
  rw [List.mem_insertionSort, List.mem_append, List.mem_map, List.mem_map]

/-- With a mark at or after every fill, a mark is the last event. -/
theorem replayEvents_last {marks : List MarkPoint} {fills : List PaperFill}
    (hlast : ∃ m ∈ marks, ∀ f ∈ fills, f.observedAt ≤ m.observedAt) :
    ∃ earlier m, replayEvents marks fills = earlier ++ [.mark m] := by
  obtain ⟨m, hm, hafter⟩ := hlast
  have hmem : ReplayEvent.mark m ∈ replayEvents marks fills :=
    mem_replayEvents.mpr (.inr ⟨m, hm, rfl⟩)
  obtain ⟨earlier, e, hsplit⟩ :=
    (List.eq_nil_or_concat _).resolve_left (List.ne_nil_of_mem hmem)
  rw [List.concat_eq_append] at hsplit
  cases e with
  | mark m' => exact ⟨earlier, m', hsplit⟩
  | fill f =>
    exfalso
    have hf : f ∈ fills := by
      have hin : ReplayEvent.fill f ∈ replayEvents marks fills := by rw [hsplit]; simp
      rcases mem_replayEvents.mp hin with ⟨g, hg, heq⟩ | ⟨g, -, heq⟩
      · exact ReplayEvent.fill.inj heq ▸ hg
      · cases heq
    have hearlier : ReplayEvent.mark m ∈ earlier := by
      rw [hsplit] at hmem
      simpa using hmem
    have hsorted : (replayEvents marks fills).Pairwise ReplayEvent.Before :=
      List.pairwise_insertionSort _ _
    rw [hsplit, List.pairwise_append] at hsorted
    -- The mark stands before the fill, but it is not earlier, and fills come first.
    rcases hsorted.2.2 _ hearlier _ (List.mem_singleton_self _) with hlt | ⟨-, hrank⟩
    · exact absurd (hafter f hf) (not_le.mpr hlt)
    · exact absurd hrank (Nat.not_succ_le_zero 0)

theorem replayedFills_perm (marks : List MarkPoint) (fills : List PaperFill) :
    (replayedFills marks fills).Perm fills := by
  have hall : (fills.map ReplayEvent.fill ++ marks.map ReplayEvent.mark).filterMap
      ReplayEvent.fill? = fills := by
    rw [List.filterMap_append, List.filterMap_map, List.filterMap_map]
    have hfills : fills.filterMap (ReplayEvent.fill? ∘ ReplayEvent.fill) = fills :=
      List.filterMap_some
    have hmarks : marks.filterMap (ReplayEvent.fill? ∘ ReplayEvent.mark) = [] :=
      List.filterMap_eq_nil_iff.mpr fun _ _ => rfl
    rw [hfills, hmarks, List.append_nil]
  have hperm := (List.perm_insertionSort ReplayEvent.Before
    (fills.map ReplayEvent.fill ++ marks.map ReplayEvent.mark)).filterMap ReplayEvent.fill?
  rwa [hall] at hperm

theorem boughtQuantity_perm {l : List PaperFill} (h : l.Perm fills) :
    boughtQuantity l = boughtQuantity fills :=
  ((h.filter _).map _).sum_eq

/-- The state after a mark that comes last. -/
theorem events_concat_mark {earlier : List ReplayEvent} {m : MarkPoint}
    (hok : s.events feeBps ids (earlier ++ [.mark m]) = .ok s') :
    ∃ before : ReplayState, s' = before.marked m := by
  induction earlier generalizing s with
  | nil =>
    cases hok
    exact ⟨s, rfl⟩
  | cons e rest ih =>
    rw [List.cons_append] at hok
    unfold ReplayState.events at hok
    split at hok
    · cases hok
    · exact ih hok

/-! ## What the trades come to -/

theorem sum_trades {trades : List BacktestTrade} {pairs : List ((Terms × Terms) × ℚ)}
    (h : List.Forall₂ TradeOf trades pairs) {g : BacktestTrade → ℚ} {v : Terms × Terms → ℚ}
    (hone : ∀ t p, TradeOf t p → g t = p.2 * v p.1) : (trades.map g).sum = weigh v pairs := by
  induction h with
  | nil => rfl
  | cons hhead _ ih => rw [List.map_cons, List.sum_cons, weigh_cons, hone _ _ hhead, ih]

theorem TradeOf.entry_ne {t : BacktestTrade} {p : (Terms × Terms) × ℚ} (h : TradeOf t p) :
    p.1.1.priceUsd ≠ 0 := h.entryPrice ▸ t.entryPrice_pos.ne'

theorem TradeOf.return_eq {t : BacktestTrade} {p : (Terms × Terms) × ℚ} (h : TradeOf t p) :
    t.notionalUsd * t.returnPct = p.2 * (p.1.2.priceUsd - p.1.1.priceUsd) := by
  have hne := h.entry_ne
  rw [h.notionalUsd, h.returnPct]
  field_simp

theorem TradeOf.matched_eq {t : BacktestTrade} {p : (Terms × Terms) × ℚ} (h : TradeOf t p) :
    t.matchedQuantity = p.2 * 1 := by
  unfold BacktestTrade.matchedQuantity
  rw [h.notionalUsd, h.entryPrice, mul_div_cancel_right₀ _ h.entry_ne, mul_one]

theorem sum_lots {lots : List PaperLot} {held : List (Terms × ℚ)}
    (h : List.Forall₂ LotOf lots held) :
    (lots.map PaperLot.quantity).sum = weigh (fun _ => 1) held := by
  induction h with
  | nil => rfl
  | cons hhead _ ih => rw [List.map_cons, List.sum_cons, weigh_cons, hhead.quantity, ih, mul_one]

/-- The run a replay ends with: the trades of what is held sold at the last price, and the
curve and the fees it had. -/
theorem Replayed.finish (h : Replayed feeBps startingEquity fills s b) (hprice : 0 < s.lastPrice)
    {all : List PaperFill} {run : PaperRun} (hok : s.finish ids all = .ok run) :
    List.Forall₂ TradeOf run.trades
        (b.sell lotTolerance ⟨s.lastPrice, 0⟩ (weigh (fun _ => 1) b.held)).pairs ∧
      run.startingEquity = s.run.startingEquity ∧ run.equityCurve = s.run.equityCurve ∧
      run.totalFees = s.run.totalFees := by
  unfold ReplayState.finish at hok
  by_cases hopen : s.lots ≠ []
  · rw [dif_pos ⟨hopen, hprice⟩] at hok
    split at hok
    · cases hok
    rename_i closed hclose
    obtain ⟨-, hpairs, trades, left, rfl⟩ := close_of (t := ⟨s.lastPrice, 0⟩) hclose h.lots
      h.trades rfl (mul_zero _).symm
    cases hok
    have hamount : (s.synthetic all hopen hprice).quantity = weigh (fun _ => 1) b.held :=
      sum_lots h.lots
    rw [hamount] at hpairs
    exact ⟨hpairs, rfl, rfl, rfl⟩
  · rw [dif_neg fun hboth => hopen hboth.1] at hok
    cases hok
    have hlots := h.lots
    rw [not_not.mp hopen, List.forall₂_nil_left_iff] at hlots
    have hpairs : (b.sell lotTolerance ⟨s.lastPrice, 0⟩ (weigh (fun _ => 1) b.held)).pairs
        = b.pairs := by
      unfold FifoBook.sell
      rw [hlots]
      exact List.append_nil _
    rw [hpairs]
    exact ⟨h.trades, rfl, rfl, rfl⟩

/-! ## A replay that returns -/

theorem PaperFill.charge_nonneg (hbps : 0 ≤ feeBps) (f : PaperFill) : 0 ≤ f.charge feeBps := by
  unfold PaperFill.charge
  split
  · exact f.fee_nonneg
  · have hnotional : 0 ≤ f.notionalUsd := mul_nonneg f.quantity_pos.le f.price_pos.le
    positivity

theorem PaperLot.less_fee_nonneg {lot : PaperLot} {matched : ℚ}
    (h : ¬lot.quantity - lotTolerance ≤ matched) (hfee : 0 ≤ lot.feeUsd) :
    0 ≤ (lot.less matched h).feeUsd := by
  show 0 ≤ lot.feeUsd - lot.feeUsd * (matched / lot.quantity)
  have hle : matched / lot.quantity ≤ 1 := by
    rw [div_le_one lot.quantity_pos]
    linarith [not_le.mp h, lotTolerance_nonneg]
  nlinarith

/-- Closing lots goes through where no fee is negative. -/
theorem closeLots_ok (exit : PaperFill) (ids : Dict String (List String)) {lots : List PaperLot}
    (hlots : ∀ lot ∈ lots, 0 ≤ lot.feeUsd) {remaining exitFee : ℚ} (hfee : 0 ≤ exitFee) :
    ∃ trades left, closeLots exit ids lots remaining exitFee = .ok (trades, left) ∧
      ∀ lot ∈ left, 0 ≤ lot.feeUsd := by
  induction lots generalizing remaining exitFee with
  | nil => exact ⟨[], [], rfl, hlots⟩
  | cons lot lots ih =>
    have hrest : ∀ l ∈ lots, 0 ≤ l.feeUsd := fun l hl => hlots l (List.mem_cons_of_mem lot hl)
    have hlot := hlots lot List.mem_cons_self
    unfold closeLots
    by_cases hdone : remaining ≤ lotTolerance
    · rw [dif_pos hdone]
      exact ⟨[], lot :: lots, rfl, hlots⟩
    rw [dif_neg hdone]
    have hrem : 0 < remaining := lotTolerance_nonneg.trans_lt (not_le.mp hdone)
    have hmatched : 0 ≤ min lot.quantity remaining := le_min lot.quantity_pos.le hrem.le
    have hquantity := lot.quantity_pos
    have hfees : 0 ≤ lot.feeUsd * (min lot.quantity remaining / lot.quantity)
        + exitFee * (min lot.quantity remaining / remaining) := by positivity
    have htrade : ∃ trade, matchedTrade exit ids lot remaining exitFee hdone = .ok trade := by
      unfold matchedTrade
      exact ⟨_, dif_pos hfees⟩
    obtain ⟨trade, htrade⟩ := htrade
    rw [htrade]
    dsimp only
    split
    · have hleft : 0 ≤ exitFee - exitFee * (min lot.quantity remaining / remaining) := by
        have hle : min lot.quantity remaining / remaining ≤ 1 :=
          (div_le_one hrem).mpr (min_le_right _ _)
        nlinarith
      obtain ⟨trades, left, hclose, hleft⟩ := ih hrest hleft
      rw [hclose]
      exact ⟨_, _, rfl, hleft⟩
    · rename_i hstay
      refine ⟨_, _, rfl, fun l hl => ?_⟩
      rcases List.mem_cons.mp hl with rfl | hl
      · exact PaperLot.less_fee_nonneg hstay hlot
      · exact hrest l hl

theorem close_ok (s : ReplayState) (ids : Dict String (List String))
    (hlots : ∀ lot ∈ s.lots, 0 ≤ lot.feeUsd) (f : PaperFill) {fee : ℚ} (hfee : 0 ≤ fee) :
    ∃ s', s.close ids f fee = .ok s' ∧ ∀ lot ∈ s'.lots, 0 ≤ lot.feeUsd := by
  obtain ⟨trades, left, hclose, hleft⟩ := closeLots_ok f ids hlots hfee
  unfold ReplayState.close
  rw [hclose]
  exact ⟨_, rfl, hleft⟩

theorem event_ok (ids : Dict String (List String)) (hbps : 0 ≤ feeBps)
    (hlots : ∀ lot ∈ s.lots, 0 ≤ lot.feeUsd) (e : ReplayEvent) :
    ∃ s', s.event feeBps ids e = .ok s' ∧ ∀ lot ∈ s'.lots, 0 ≤ lot.feeUsd := by
  cases e with
  | mark m => exact ⟨_, rfl, hlots⟩
  | fill f =>
    have hfee := f.charge_nonneg hbps
    unfold ReplayState.event
    dsimp only
    cases f.side with
    | buy =>
      refine ⟨_, rfl, fun lot hlot => ?_⟩
      rcases List.mem_append.mp hlot with hold | hnew
      · exact hlots lot hold
      · rw [List.mem_singleton.mp hnew]
        exact hfee
    | sell =>
      show ∃ s', (s.charged f _).sold ids f _ = .ok s' ∧ _
      unfold ReplayState.sold
      refine close_ok _ ids ?_ f hfee
      exact hlots

theorem events_ok (ids : Dict String (List String)) (hbps : 0 ≤ feeBps)
    (hlots : ∀ lot ∈ s.lots, 0 ≤ lot.feeUsd) (l : List ReplayEvent) :
    ∃ s', s.events feeBps ids l = .ok s' ∧ ∀ lot ∈ s'.lots, 0 ≤ lot.feeUsd := by
  induction l generalizing s with
  | nil => exact ⟨s, rfl, hlots⟩
  | cons e rest ih =>
    obtain ⟨s₁, hevent, hlots₁⟩ := event_ok ids hbps hlots e
    unfold ReplayState.events
    rw [hevent]
    exact ih hlots₁

/-- A replay returns a run: a fee that is not negative is all it takes. -/
theorem reconstruct_ok (marks : List MarkPoint) (fills : List PaperFill)
    (ids : Dict String (List String)) (hstart : 0 < startingEquity) (hbps : 0 ≤ feeBps) :
    ∃ run, reconstruct marks fills startingEquity feeBps ids = .ok run := by
  obtain ⟨s, hevents, hlots⟩ := events_ok (s := ReplayState.start marks startingEquity) ids hbps
    (fun _ hl => absurd hl List.not_mem_nil) (replayEvents marks fills)
  unfold reconstruct
  rw [if_neg (not_le.mpr hstart), hevents]
  dsimp only
  unfold ReplayState.finish
  split
  · obtain ⟨s', hclose, -⟩ := close_ok s ids hlots (s.synthetic fills _ _) (le_refl 0)
    rw [hclose]
    exact ⟨_, rfl⟩
  · exact ⟨_, rfl⟩

/-! ## The reconciliation -/

/-- What the trades of a run come to, and how its curve moved, in terms of the matching. -/
structure TradeAccounts (marks : List MarkPoint) (fills : List PaperFill) (feeBps : ℚ)
    (run : PaperRun) (c : FifoBook Terms ℚ) : Prop where
  trades : List.Forall₂ TradeOf run.trades c.pairs
  totalFees : run.totalFees = (fills.map fun f => f.charge feeBps).sum
  unitFees : c.bought Terms.unitFee + c.sold Terms.unitFee = run.totalFees
  curve : run.endingEquity - run.startingEquity = c.sold Terms.priceUsd - c.bought Terms.priceUsd
    - run.totalFees + (c.bought (fun _ => 1) - c.sold fun _ => 1) * closingPrice marks fills
  bought : c.bought (fun _ => 1) = boughtQuantity fills
  sound : c.Sound

/-- **What a replay returns**, when a mark comes at or after every fill. -/
theorem reconstruct_accounts {marks : List MarkPoint} {fills : List PaperFill}
    (hlast : ∃ m ∈ marks, ∀ f ∈ fills, f.observedAt ≤ m.observedAt) {run : PaperRun}
    (hok : reconstruct marks fills startingEquity feeBps ids = .ok run) :
    TradeAccounts marks fills feeBps run (matchedBook marks fills feeBps) := by
  unfold reconstruct at hok
  split at hok
  · cases hok
  split at hok
  · cases hok
  rename_i s hevents
  obtain ⟨earlier, m, hsplit⟩ := replayEvents_last hlast
  have hreplayed : Replayed feeBps startingEquity (replayedFills marks fills) s
      ((replayedFills marks fills).foldl (matchFill feeBps) .empty) := by
    have hall := (Replayed.start marks feeBps startingEquity).events hevents
    rwa [List.nil_append] at hall
  have hclosing : closingPrice marks fills = m.priceUsd := by
    unfold closingPrice
    rw [hsplit, List.getLast?_concat]
    rfl
  rw [hsplit] at hevents
  obtain ⟨before, rfl⟩ := events_concat_mark hevents
  obtain ⟨htrades, hstarting, hcurve, hfees⟩ := hreplayed.finish m.price_pos hok
  have hperm := replayedFills_perm marks fills
  have hbook : matchedBook marks fills feeBps = FifoBook.sell lotTolerance
      ((replayedFills marks fills).foldl (matchFill feeBps) .empty) ⟨m.priceUsd, 0⟩
      (weigh (fun _ => 1) ((replayedFills marks fills).foldl (matchFill feeBps) .empty).held) := by
    unfold matchedBook
    rw [hclosing]
  have hending : run.endingEquity = before.cash + before.quantity * m.priceUsd := by
    unfold PaperRun.endingEquity
    rw [hcurve]
    show ((before.run.equityCurve ++ [_]).getLast?.map Prod.snd).getD _ = _
    rw [List.getLast?_concat]
    rfl
  have hcash : before.cash = _ := hreplayed.cash
  have hquantity : before.quantity = _ := hreplayed.quantity
  rw [hbook]
  refine ⟨htrades, ?_, ?_, ?_, ?_, hreplayed.sound.sell lotTolerance_nonneg⟩
  · rw [hfees, hreplayed.totalFees]
    exact (hperm.map _).sum_eq
  · rw [FifoBook.bought_sell, FifoBook.sold_sell, hfees, ← hreplayed.unitFees]
    ring
  · rw [hending, hstarting, hreplayed.starting, hcash, hquantity, hfees, hclosing]
    simp only [FifoBook.bought_sell, FifoBook.sold_sell]
    ring
  · rw [FifoBook.bought_sell, ← boughtQuantity_perm hperm]
    exact hreplayed.bought

variable {marks : List MarkPoint} {run : PaperRun} {c : FifoBook Terms ℚ}

/-- Every unit that was bought is in a trade when the matching leaves no lot behind. -/
theorem TradeAccounts.quantity_iff (h : TradeAccounts marks fills feeBps run c) :
    (run.trades.map BacktestTrade.matchedQuantity).sum = boughtQuantity fills ↔
      c.held = [] ∧ ∀ p ∈ c.dropped, p.2 = 0 := by
  rw [sum_trades (v := fun _ => 1) h.trades fun _ _ hone => hone.matched_eq, ← h.bought]
  exact h.sound.paired_iff

section

variable (h : TradeAccounts marks fills feeBps run c) (hheld : c.held = [])
  (hdropped : ∀ p ∈ c.dropped, p.2 = 0)

include hheld hdropped

theorem bought_of_paired (v : Terms → ℚ) : c.bought v = weigh (fun p => v p.1) c.pairs := by
  unfold FifoBook.bought
  rw [hheld, weigh_eq_zero hdropped]
  simp

include h

/-- The trades carry the fees of all that was met. -/
theorem TradeAccounts.fees_iff : (run.trades.map BacktestTrade.feesPaid).sum = run.totalFees ↔
    weigh Terms.unitFee c.unmet = 0 := by
  have hsum : (run.trades.map BacktestTrade.feesPaid).sum
      = weigh (fun p => p.1.unitFee + p.2.unitFee) c.pairs :=
    sum_trades h.trades fun t p hone => by
      rw [hone.feesPaid]
      ring
  have hfees := h.unitFees
  rw [bought_of_paired hheld hdropped] at hfees
  unfold FifoBook.sold at hfees
  rw [hsum, weigh_add]
  constructor
  · intro heq
    linarith
  · intro heq
    linarith

/-- **The returns leave out every fee**: they make up the curve exactly when the fees come
to what the unmet ends of sales are worth above the closing price. -/
theorem TradeAccounts.returns_iff :
    (run.trades.map fun t => t.notionalUsd * t.returnPct).sum
        = run.endingEquity - run.startingEquity ↔
      run.totalFees = weigh (fun t => t.priceUsd - closingPrice marks fills) c.unmet := by
  have hsum : (run.trades.map fun t => t.notionalUsd * t.returnPct).sum
      = weigh (fun p => p.2.priceUsd - p.1.priceUsd) c.pairs :=
    sum_trades h.trades fun _ _ hone => hone.return_eq
  have hcurve := h.curve
  rw [bought_of_paired hheld hdropped, bought_of_paired hheld hdropped] at hcurve
  unfold FifoBook.sold at hcurve
  rw [hsum, hcurve, weigh_sub, weigh_sub, weigh_const (closingPrice marks fills)]
  constructor
  · intro heq
    linarith
  · intro heq
    linarith

end

/-- **Trades and curve reconcile exactly when the matching squares.** A fee of any size on
a sale that is met in full breaks the returns. -/
theorem TradeAccounts.reconciles_iff
    (h : TradeAccounts marks fills feeBps run (matchedBook marks fills feeBps)) :
    Reconciles fills run ↔ Squares marks fills feeBps := by
  constructor
  · rintro ⟨hreturns, hfees, hquantity⟩
    obtain ⟨hheld, hdropped⟩ := h.quantity_iff.mp hquantity
    refine ⟨hheld, hdropped, (h.fees_iff hheld hdropped).mp hfees, ?_⟩
    rw [← h.totalFees]
    exact (h.returns_iff hheld hdropped).mp hreturns
  · rintro ⟨hheld, hdropped, hunmet, hfees⟩
    rw [← h.totalFees] at hfees
    exact ⟨(h.returns_iff hheld hdropped).mpr hfees, (h.fees_iff hheld hdropped).mpr hunmet,
      h.quantity_iff.mpr ⟨hheld, hdropped⟩⟩

/-- **Where every sale is met in full, only a replay without fees squares.** -/
theorem squares_iff_of_met (hmet : ∀ p ∈ (matchedBook marks fills feeBps).unmet, p.2 = 0) :
    Squares marks fills feeBps ↔
      ((matchedBook marks fills feeBps).held = [] ∧
          ∀ p ∈ (matchedBook marks fills feeBps).dropped, p.2 = 0) ∧
        (fills.map fun f => f.charge feeBps).sum = 0 := by
  constructor
  · rintro ⟨hheld, hdropped, -, hfees⟩
    exact ⟨⟨hheld, hdropped⟩, hfees.trans (weigh_eq_zero hmet)⟩
  · rintro ⟨⟨hheld, hdropped⟩, hfees⟩
    exact ⟨hheld, hdropped, weigh_eq_zero hmet, hfees.trans (weigh_eq_zero hmet).symm⟩

namespace Levied

theorem hundred_pos : (0 : ℚ) < 100 := by norm_num

/-- Two units bought at 100, and a fee of 1. -/
def bought (feeUsd : ℚ) (fee_nonneg : 0 ≤ feeUsd) : PaperFill where
  observedAt := 1
  orderId := "order-1"
  decisionId := "decision-1"
  asset := "BTC"
  side := .buy
  quantity := 2
  priceUsd := 100
  feeUsd := feeUsd
  feeSource := none
  quantity_pos := two_pos
  price_pos := hundred_pos
  fee_nonneg := fee_nonneg

theorem price_pos : (0 : ℚ) < 110 := by norm_num

/-- One of them sold at 110. -/
def sold (feeUsd : ℚ) (fee_nonneg : 0 ≤ feeUsd) : PaperFill :=
  { bought feeUsd fee_nonneg with
    observedAt := 2
    orderId := "order-2"
    decisionId := "decision-2"
    side := .sell
    quantity := 1
    priceUsd := 110
    quantity_pos := unit_pos
    price_pos := price_pos }

/-- The last mark, at 110. -/
def mark : MarkPoint := ⟨3, 110, price_pos⟩

/-- The fills, at a fee of 1 each. -/
def both : List PaperFill := [bought 1 zero_le_one, sold 1 zero_le_one]

theorem replay : (reconstruct [mark] both 1000 0 .empty).toOption.map (fun run =>
    ((run.trades.map fun t => t.notionalUsd * t.returnPct).sum,
      run.endingEquity - run.startingEquity)) = some (20, 18) := by
  decide +kernel

end Levied

/-- Two units are bought at 100, one is sold at 110 and the other marked there, at a fee of
1 each way. The trades make 20, the curve 18. -/
theorem levied_returns_leave_out_fees :
    (∀ f ∈ Levied.both, f.observedAt ≤ Levied.mark.observedAt) ∧
      ∃ run, reconstruct [Levied.mark] Levied.both 1000 0 .empty = .ok run ∧
        ¬Reconciles Levied.both run := by
  refine ⟨by decide +kernel, ?_⟩
  obtain ⟨run, hok⟩ : ∃ run, reconstruct [Levied.mark] Levied.both 1000 0 .empty = .ok run :=
    reconstruct_ok _ _ _ (by norm_num) (le_refl 0)
  refine ⟨run, hok, fun hbad => ?_⟩
  have hreplay := Levied.replay
  rw [hok] at hreplay
  obtain ⟨htrades, hcurve⟩ := Prod.mk.inj (Option.some.inj hreplay)
  have hreturns := hbad.returns
  rw [htrades, hcurve] at hreturns
  norm_num at hreturns

/-- **Paper trades against the curve.** With a mark at or after every fill, a replay of a
positive equity at a fee that is not negative returns a run; and the trades of whatever
run is returned reconcile exactly when the matching squares. -/
theorem trade_returns_reconcile_iff (marks : List MarkPoint) (fills : List PaperFill)
    (startingEquity feeBps : ℚ) (ids : Dict String (List String))
    (hlast : ∃ m ∈ marks, ∀ f ∈ fills, f.observedAt ≤ m.observedAt) :
    (0 < startingEquity → 0 ≤ feeBps →
        ∃ run, reconstruct marks fills startingEquity feeBps ids = .ok run) ∧
      ∀ run, reconstruct marks fills startingEquity feeBps ids = .ok run →
        (Reconciles fills run ↔ Squares marks fills feeBps) :=
  ⟨fun hstart hbps => reconstruct_ok marks fills ids hstart hbps,
    fun _ hok => (reconstruct_accounts hlast hok).reconciles_iff⟩

/-- The same fills without fees reconcile. -/
theorem trade_returns_reconcile_levied :
    ∃ run, reconstruct [Levied.mark] [Levied.bought 0 le_rfl, Levied.sold 0 le_rfl] 1000 0 .empty
        = .ok run ∧
      Reconciles [Levied.bought 0 le_rfl, Levied.sold 0 le_rfl] run := by
  obtain ⟨hreturns, hiff⟩ := trade_returns_reconcile_iff [Levied.mark]
    [Levied.bought 0 le_rfl, Levied.sold 0 le_rfl] 1000 0 .empty
    ⟨Levied.mark, List.mem_singleton_self _, by decide +kernel⟩
  obtain ⟨run, hok⟩ := hreturns (by norm_num) le_rfl
  refine ⟨run, hok, (hiff run hok).mpr ?_⟩
  refine ⟨?_, ?_, ?_, ?_⟩
  · decide +kernel
  · decide +kernel
  · decide +kernel
  · decide +kernel

end TraderStack
