import TraderStack.Research.AlignedDays

/-!
# Lead and lag (lead_lag.py)

One asset is traded on what the other, its lead, has returned over the last days on which both
closed. The other leg is flat on the same days.

- `leadlagPositionSeries_ok`: a series that does not raise is read off the rows place by place;
- `sameVotes_leadlagSignals`: **the voters of two runs vote alike** where their bars agree up to
  the moment.
-/

namespace TraderStack

open Lib

/-! ## Aligned rows -/

/-- `ALIAS_TO_CANONICAL` (lead_lag.py:112–120), without the third asset. -/
def pairAliases : Dict String String :=
  Dict.ofList
    [("BTC/USD", "BTC/USD"), ("BTCUSDT", "BTC/USD"), ("BTC-USD", "BTC/USD"), ("XBT/USD", "BTC/USD"),
      ("ETH/USD", "ETH/USD"), ("ETHUSDT", "ETH/USD"), ("ETH-USD", "ETH/USD")]

/-- `ASSET_TO_CANONICAL`. -/
def assetToCanonical : Dict String String := Dict.ofList [("BTC", "BTC/USD"), ("ETH", "ETH/USD")]

/-- A day with the closes of both assets. -/
structure PairDay where
  ts : Time
  btc : ℚ
  eth : ℚ

/-- The row of a day on which both assets close, if both closes are positive. -/
def pairDay (btcClose ethClose : Time → ℚ) (ts : Time) : Option PairDay :=
  if btcClose ts ≤ 0 ∨ ethClose ts ≤ 0 then none else some ⟨ts, btcClose ts, ethClose ts⟩

/-- `aligned_pair_days` (lines 237–254), of the last bar of each day. -/
def alignedPairDays (btc eth : List Candle) : List PairDay :=
  if btc.isEmpty ∨ eth.isEmpty then []
  else
    let btcClose := closesByTime (fun _ => true) btc
    let ethClose := closesByTime (fun _ => true) eth
    (alignedDays [btcClose, ethClose]).filterMap
      (pairDay (fun ts => (btcClose.get? ts).getD 0) fun ts => (ethClose.get? ts).getD 0)

/-! ## Positions -/

/-- The parameters of a candidate. -/
structure LeadLagArgs where
  traded : String
  lead : String
  lookback : ℤ
  book : String

/-- `lead_trailing_return` (lines 257–269). -/
def leadTrailingReturn (leadCloses : List ℚ) (index : ℕ) (lookback : ℤ) : Option ℚ :=
  if lookback ≤ 0 ∨ index < lookback ∨ leadCloses.length ≤ index then none
  else
    let start := leadCloses.getD (index - lookback.toNat) 0
    let last := leadCloses.getD index 0
    if start ≤ 0 ∨ last ≤ 0 then none else some (last / start - 1)

/-- `leadlag_position` (lines 272–283). -/
def leadlagPosition (leadReturn : ℚ) (book : String) : Except ResearchError ℚ :=
  if book = "follow_lo" then .ok (if 0 < leadReturn then 1 else 0)
  else if book = "follow_ls" then
    .ok (if 0 < leadReturn then 1 else if leadReturn < 0 then -1 else 0)
  else if book = "fade_lo" then .ok (if leadReturn < 0 then 1 else 0)
  else .error (.decision ("unknown lead-lag book: " ++ book))

/-- The closes of the lead. -/
def leadCloses (lead : String) (rows : List PairDay) : Except ResearchError (List ℚ) :=
  if lead = "BTC" then .ok (rows.map PairDay.btc)
  else if lead = "ETH" then .ok (rows.map PairDay.eth)
  else .error (.decision ("unknown lead asset: " ++ lead))

/-- `pair_days[index][0]`. -/
def dayAt (rows : List PairDay) (index : ℕ) : Time := (rows[index]?.map PairDay.ts).getD 0

/-- One turn of the loop (lines 302–306). -/
def leadlagTurn (args : LeadLagArgs) (rows : List PairDay) (closes : List ℚ) (out : PositionSeries)
    (index : ℕ) : Except ResearchError PositionSeries :=
  match leadTrailingReturn closes index args.lookback with
  | none => .ok out
  | some trailing =>
    (leadlagPosition trailing args.book).map fun position => out ++ [(dayAt rows index, position)]

/-- `leadlag_position_series` (lines 286–308). -/
def leadlagPositionSeries (args : LeadLagArgs) (rows : List PairDay) :
    Except ResearchError PositionSeries :=
  if args.lookback ≤ 0 ∨ rows.length < args.lookback + 1 then .ok []
  else do
    let closes ← leadCloses args.lead rows
    (List.range' args.lookback.toNat (rows.length - args.lookback.toNat)).foldlM
      (leadlagTurn args rows closes) []

/-- The rows of the pair. -/
def pairRows (histories : Dict String (List Candle)) : List PairDay :=
  alignedPairDays (barsOf pairAliases histories "BTC/USD") (barsOf pairAliases histories "ETH/USD")

/-- `leadlag_signals` (lines 311–337). -/
def leadlagSignals (args : LeadLagArgs) (histories : Dict String (List Candle)) :
    Except ResearchError (Dict String PositionSeries) := do
  let series ← leadlagPositionSeries args (pairRows histories)
  if series.isEmpty then .ok .empty
  else
    match assetToCanonical.get? args.traded with
    | none => .error (.fatal "KeyError")
    | some tradedCanonical =>
      .ok (pairAliases.map fun _ canonical =>
        if canonical = tradedCanonical then series else series.map fun e => (e.1, 0))

/-- The words of `LeadLagVoter` (lines 340–381). -/
def leadlagWords : VoterWords :=
  ⟨"leadlag: no same-bar assignment (warmup / unpaired)", "leadlag assignment="⟩

/-! ## A series that does not raise -/

section

variable {args : LeadLagArgs} {rows : List PairDay} {t : Time}

/-- The position of a place with the lead's closes, if it has a trailing return. -/
def leadlagAt (args : LeadLagArgs) (closes : PairDay → ℚ) (rows : List PairDay) (index : ℕ) :
    Option (Time × ℚ) :=
  (leadTrailingReturn (rows.map closes) index args.lookback).bind fun trailing =>
    (leadlagPosition trailing args.book).toOption.map fun position => (dayAt rows index, position)

/-- The closes that a lead is read by. -/
def closeOf (lead : String) (row : PairDay) : ℚ := if lead = "BTC" then row.btc else row.eth

theorem leadCloses_ok {closes : List ℚ} (h : leadCloses args.lead rows = .ok closes) :
    closes = rows.map (closeOf args.lead) := by
  unfold leadCloses at h
  split at h
  next hbtc =>
    cases h
    exact List.map_congr_left fun row _ => (if_pos hbtc).symm
  next hbtc =>
    split at h
    · cases h
      exact List.map_congr_left fun row _ => (if_neg hbtc).symm
    · cases h

/-- A loop that does not raise adds the positions of its places. -/
theorem foldlM_leadlagTurn {places : List ℕ} {out series : PositionSeries}
    (h : places.foldlM (leadlagTurn args rows (rows.map (closeOf args.lead))) out = .ok series) :
    series = out ++ places.filterMap (leadlagAt args (closeOf args.lead) rows) := by
  induction places generalizing out with
  | nil =>
    cases h
    rw [List.filterMap_nil, List.append_nil]
  | cons index places ih =>
    rw [List.foldlM_cons] at h
    cases hnext : leadlagTurn args rows (rows.map (closeOf args.lead)) out index with
    | error e =>
      rw [hnext] at h
      cases h
    | ok next =>
      rw [hnext] at h
      rw [ih h, List.filterMap_cons]
      unfold leadlagTurn at hnext
      unfold leadlagAt
      cases htrailing : leadTrailingReturn (rows.map (closeOf args.lead)) index args.lookback with
      | none =>
        rw [htrailing] at hnext
        cases hnext
        rfl
      | some trailing =>
        rw [htrailing] at hnext
        dsimp only at hnext
        rw [Option.bind_some]
        cases hposition : leadlagPosition trailing args.book with
        | error e =>
          rw [hposition] at hnext
          cases hnext
        | ok position =>
          rw [hposition] at hnext
          cases hnext
          exact List.append_assoc _ _ _

/-- **A series that does not raise** is read off the rows place by place. -/
theorem leadlagPositionSeries_ok {series : PositionSeries}
    (h : leadlagPositionSeries args rows = .ok series) :
    series =
      if 0 < args.lookback then
        (List.range' args.lookback.toNat (rows.length - args.lookback.toNat)).filterMap
          (leadlagAt args (closeOf args.lead) rows)
      else [] := by
  unfold leadlagPositionSeries at h
  split at h
  next hshort =>
    cases h
    split
    next hpos =>
      have hnone : rows.length - args.lookback.toNat = 0 := by omega
      rw [hnone]
      rfl
    · rfl
  next hlong =>
    cases hcloses : leadCloses args.lead rows with
    | error e =>
      rw [hcloses] at h
      cases h
    | ok closes =>
      rw [hcloses, leadCloses_ok hcloses] at h
      have hpos : 0 < args.lookback := by omega
      rw [if_pos hpos, foldlM_leadlagTurn h, List.nil_append]

/-! ## Point in time -/

theorem leadlagAt_concat {closes : PairDay → ℚ} {row : PairDay} {index : ℕ}
    (h : index < rows.length) :
    leadlagAt args closes (rows ++ [row]) index = leadlagAt args closes rows index := by
  have hlength : (rows.map closes).length = rows.length := List.length_map _
  have hreturn : leadTrailingReturn ((rows ++ [row]).map closes) index args.lookback
      = leadTrailingReturn (rows.map closes) index args.lookback := by
    have hlonger : ¬(rows.map closes).length + 1 ≤ index := by omega
    have hplace : ¬(rows.map closes).length ≤ index := by omega
    have hstart : index - args.lookback.toNat < (rows.map closes).length := by omega
    have hindex : index < (rows.map closes).length := by omega
    simp only [leadTrailingReturn, List.map_append, List.map_singleton, List.length_append,
      List.length_singleton, List.getD_eq_getElem?_getD, List.getElem?_append_left hstart,
      List.getElem?_append_left hindex, hlonger, hplace]
  rw [leadlagAt, leadlagAt, hreturn, dayAt, dayAt, List.getElem?_append_left h]

/-- **No later day changes a position.** -/
theorem leadlag_ignoresNext (args : LeadLagArgs) (closes : PairDay → ℚ) :
    IgnoresNext PairDay.ts fun rows t =>
      lookup 0 ((List.range' args.lookback.toNat (rows.length - args.lookback.toNat)).filterMap
        (leadlagAt args closes rows)) t := by
  refine ignoresNext_filterMap args.lookback.toNat ?_ ?_
  · exact fun rows row index hindex => leadlagAt_concat hindex
  · intro rows row e hnew
    obtain ⟨trailing, -, hposition⟩ := Option.bind_eq_some_iff.mp hnew
    obtain ⟨position, -, rfl⟩ := Option.map_eq_some_iff.mp hposition
    rw [dayAt, List.getElem?_concat_length]
    rfl

end

/-! ## The rows of two runs -/

section

variable {btcClose btcClose' ethClose ethClose' : Time → ℚ} {btc btc' eth eth' : List Candle}
  {t : Time}

theorem ts_of_pairDay {ts : Time} {row : PairDay} (h : pairDay btcClose ethClose ts = some row) :
    row.ts = ts := by
  unfold pairDay at h
  split at h
  · cases h
  · cases h
    rfl

/-- The rows up to a moment are the rows of the days up to it. -/
theorem upTo_pairDays (days : List Time) :
    upTo PairDay.ts t (days.filterMap (pairDay btcClose ethClose))
      = (upTo (fun day => day) t days).filterMap (pairDay btcClose ethClose) := by
  induction days with
  | nil => rfl
  | cons day days ih =>
    unfold upTo at ih ⊢
    rw [List.filterMap_cons, List.filter_cons]
    cases hrow : pairDay btcClose ethClose day with
    | none =>
      dsimp only
      rw [ih]
      split
      · rw [List.filterMap_cons, hrow]
      · rfl
    | some row =>
      dsimp only
      rw [List.filter_cons, ih, ts_of_pairDay hrow]
      split
      · rw [List.filterMap_cons, hrow]
      · rfl

theorem ascending_pairDays {days : List Time} (h : days.Pairwise fun a b => a < b) :
    (days.filterMap (pairDay btcClose ethClose)).Pairwise fun a b => a.ts < b.ts := by
  refine List.pairwise_filterMap.mpr (h.imp fun hab a ha b hb => ?_)
  rwa [ts_of_pairDay ha, ts_of_pairDay hb]

/-- Without the early return, there are no rows either. -/
theorem alignedPairDays_eq (btc eth : List Candle) :
    alignedPairDays btc eth =
      (alignedDays [closesByTime (fun _ => true) btc, closesByTime (fun _ => true) eth]).filterMap
        (pairDay (fun ts => ((closesByTime (fun _ => true) btc).get? ts).getD 0)
          fun ts => ((closesByTime (fun _ => true) eth).get? ts).getD 0) := by
  unfold alignedPairDays
  by_cases hempty : btc.isEmpty = true ∨ eth.isEmpty = true
  · rw [if_pos hempty]
    have hnone : alignedDays
        [closesByTime (fun _ => true) btc, closesByTime (fun _ => true) eth] = [] := by
      refine List.eq_nil_iff_forall_not_mem.mpr fun day hday => ?_
      have hall := (mem_alignedDays (List.cons_ne_nil _ _)).mp hday
      rcases hempty with hnil | hnil
      · have hsome := hall (closesByTime (fun _ => true) btc) (by simp)
        rw [List.isEmpty_iff.mp hnil] at hsome
        cases hsome
      · have hsome := hall (closesByTime (fun _ => true) eth) (by simp)
        rw [List.isEmpty_iff.mp hnil] at hsome
        cases hsome
    rw [hnone]
    rfl
  · rw [if_neg hempty]

/-- **The rows up to a moment** are decided by the closes up to it. -/
theorem upTo_alignedPairDays
    (hbtc : ∀ day ≤ t, (closesByTime (fun _ => true) btc).get? day
      = (closesByTime (fun _ => true) btc').get? day)
    (heth : ∀ day ≤ t, (closesByTime (fun _ => true) eth).get? day
      = (closesByTime (fun _ => true) eth').get? day) :
    upTo PairDay.ts t (alignedPairDays btc eth)
      = upTo PairDay.ts t (alignedPairDays btc' eth') := by
  rw [alignedPairDays_eq, alignedPairDays_eq, upTo_pairDays, upTo_pairDays,
    upTo_alignedDays (List.Forall₂.cons hbtc (List.Forall₂.cons heth List.Forall₂.nil))]
  refine List.filterMap_congr fun day hday => ?_
  have hday := (mem_upTo.mp hday).2
  rw [pairDay, pairDay, hbtc day hday, heth day hday]

theorem ascending_alignedPairDays (btc eth : List Candle) :
    (alignedPairDays btc eth).Pairwise fun a b => a.ts < b.ts := by
  rw [alignedPairDays_eq]
  exact ascending_pairDays (ascending_alignedDays _)

end

/-! ## The voters -/

/-- The pair's aliases are among those of the three assets. -/
theorem aliasToCanonical_of_pairAliases {key asset : String}
    (h : pairAliases.get? key = some asset) : aliasToCanonical.get? key = some asset := by
  have hentries : ∀ e ∈ pairAliases.entries, aliasToCanonical.get? e.1 = some e.2 := by
    decide +kernel
  exact hentries (key, asset) (Dict.mem_entries_iff.mpr h)

theorem upper_pairAliases : ∀ key ∈ pairAliases.keys, Text.upper key = key := by
  decide +kernel

/-- Histories that are well formed for the three assets are so for the pair. -/
theorem WellFormed.pair {histories : Dict String (List Candle)}
    (h : WellFormed aliasToCanonical histories) : WellFormed pairAliases histories where
  one_symbol := h.one_symbol
  ascending := h.ascending
  one_history := by
    have hof : ∀ candles asset, assetOf pairAliases candles = some asset →
        assetOf aliasToCanonical candles = some asset := by
      intro candles asset hasset
      obtain ⟨first, hfirst, hget⟩ := Option.bind_eq_some_iff.mp hasset
      exact Option.bind_eq_some_iff.mpr ⟨first, hfirst, aliasToCanonical_of_pairAliases hget⟩
    intro key key' candles candles' asset hkey hkey' hasset hasset'
    exact h.one_history key key' candles candles' asset hkey hkey' (hof _ _ hasset)
      (hof _ _ hasset')

section

variable {args : LeadLagArgs} {histories histories' : Dict String (List Candle)}
  {mapping mapping' : Dict String PositionSeries} {t : Time}

/-- **What the mapping says of an alias** at a moment: the traded asset has the position of the
rows, and the other leg is flat. -/
theorem leadlagSignals_ok (h : leadlagSignals args histories = .ok mapping) :
    ∃ series, leadlagPositionSeries args (pairRows histories) = .ok series ∧
      (∀ key ∈ mapping.keys, key ∈ pairAliases.keys) ∧
      ∀ key t, lookup 0 ((mapping.get? key).getD []) t
        = (pairAliases.get? key).elim 0 fun canonical =>
            if assetToCanonical.get? args.traded = some canonical then lookup 0 series t
            else 0 := by
  unfold leadlagSignals at h
  change (leadlagPositionSeries args (pairRows histories) >>= _) = _ at h
  cases hseries : leadlagPositionSeries args (pairRows histories) with
  | error e =>
    rw [hseries] at h
    cases h
  | ok series =>
    rw [hseries] at h
    change (if series.isEmpty = true then _ else _) = _ at h
    refine ⟨series, rfl, ?_⟩
    by_cases hempty : series.isEmpty = true
    · rw [if_pos hempty] at h
      cases h
      refine ⟨fun key hkey => absurd hkey List.not_mem_nil, fun key t => ?_⟩
      rw [List.isEmpty_iff.mp hempty]
      cases pairAliases.get? key with
      | none => rfl
      | some canonical => exact (ite_self 0).symm
    · rw [if_neg hempty] at h
      cases htraded : assetToCanonical.get? args.traded with
      | none =>
        rw [htraded] at h
        cases h
      | some tradedCanonical =>
        rw [htraded] at h
        cases h
        refine ⟨fun key hkey => ?_, fun key t => ?_⟩
        · rwa [Dict.keys, Dict.map, List.map_map] at hkey
        · rw [Dict.get?_map]
          cases pairAliases.get? key with
          | none => rfl
          | some canonical =>
            rw [Option.map_some, Option.getD_some, Option.elim_some]
            by_cases hcanonical : canonical = tradedCanonical
            · rw [if_pos hcanonical, if_pos (by rw [hcanonical])]
            · rw [if_neg hcanonical, if_neg fun heq => hcanonical (Option.some.inj heq).symm]
              -- the other leg is flat on every day
              refine lookup_of_forall fun e he _ => ?_
              obtain ⟨e', -, rfl⟩ := List.mem_map.mp he
              rfl

/-- The two series have the same position at a moment, if their rows agree up to it. -/
theorem lookup_leadlagPositionSeries {rows rows' : List PairDay} {series series' : PositionSeries}
    (hrows : rows.Pairwise fun a b => a.ts < b.ts) (hrows' : rows'.Pairwise fun a b => a.ts < b.ts)
    (hupTo : upTo PairDay.ts t rows = upTo PairDay.ts t rows')
    (h : leadlagPositionSeries args rows = .ok series)
    (h' : leadlagPositionSeries args rows' = .ok series') :
    lookup 0 series t = lookup 0 series' t := by
  rw [leadlagPositionSeries_ok h, leadlagPositionSeries_ok h']
  split
  · exact read_eq_of_upTo (leadlag_ignoresNext args (closeOf args.lead)) hrows hrows' hupTo
  · rfl

/-- **The voters of two runs vote alike** where the bars agree up to the moment. -/
theorem sameVotes_leadlagSignals (hwf : WellFormed aliasToCanonical histories)
    (hwf' : WellFormed aliasToCanonical histories') (hagree : AgreeUpTo t histories histories')
    (h : leadlagSignals args histories = .ok mapping)
    (h' : leadlagSignals args histories' = .ok mapping') :
    SameVotes leadlagWords t mapping mapping' := by
  obtain ⟨series, hseries, hkeys, hlookup⟩ := leadlagSignals_ok h
  obtain ⟨series', hseries', hkeys', hlookup'⟩ := leadlagSignals_ok h'
  have hcloses : ∀ asset, ∀ day ≤ t,
      (closesByTime (fun _ => true) (barsOf pairAliases histories asset)).get? day
        = (closesByTime (fun _ => true) (barsOf pairAliases histories' asset)).get? day :=
    fun asset day hday => closesByTime_eq hwf.pair hwf'.pair hagree asset hday
  have hsame : lookup 0 series t = lookup 0 series' t :=
    lookup_leadlagPositionSeries (ascending_alignedPairDays _ _) (ascending_alignedPairDays _ _)
      (upTo_alignedPairDays (hcloses _) (hcloses _)) hseries hseries'
  refine sameVotes_of_lookup (fun key hkey => upper_pairAliases key (hkeys key hkey))
    (fun key hkey => upper_pairAliases key (hkeys' key hkey)) fun key => ?_
  rw [hlookup, hlookup', hsame]

end

end TraderStack
