import TraderStack.Research.AlignedDays
import TraderStack.Research.Universe

/-!
# Cross-sectional momentum (cross_sectional_momentum.py)

On each day that all three assets close, they are ranked by their trailing returns; the first is
held long and, in a neutral book, the last is held short. Days that miss an asset are skipped, so
the place of a day among the aligned ones depends on the days before it.

- `lookup_assignments_eq`: **the positions at a moment** are decided by the closes up to it.
-/

namespace TraderStack

open Lib

/-! ## Closes -/

/-- `UNIVERSE`. -/
def xsUniverse : List String := ["BTC/USD", "ETH/USD", "SOL/USD"]

/-- The closes of an asset. -/
def closesAt (closes : Dict String (Dict Time ℚ)) (asset : String) : Dict Time ℚ :=
  (closes.get? asset).getD .empty

/-- `if candle.close > 0: out[canonical][candle.opened_at] = candle.close`, for each bar. -/
def addCloses (closes : Dict Time ℚ) (candles : List Candle) : Dict Time ℚ :=
  candles.foldl
    (fun closes candle =>
      if 0 < candle.close then closes.set candle.openedAt candle.close else closes) closes

/-- One history (lines 214–222). -/
def addHistory (out : Dict String (Dict Time ℚ)) (candles : List Candle) :
    Dict String (Dict Time ℚ) :=
  match assetOf aliasToCanonical candles with
  | none => out
  | some canonical => out.set canonical (addCloses (closesAt out canonical) candles)

/-- `_closes_by_canonical` (lines 210–223). -/
def closesByCanonical (histories : Dict String (List Candle)) : Dict String (Dict Time ℚ) :=
  histories.values.foldl addHistory (Dict.ofList (xsUniverse.map fun name => (name, .empty)))

/-- `aligned_triple_days` (lines 226–235). -/
def alignedTripleDays (closes : Dict String (Dict Time ℚ)) : List Time :=
  if xsUniverse.any fun name => (closesAt closes name).entries.isEmpty then []
  else alignedDays (xsUniverse.map (closesAt closes))

/-! ## Assignments -/

/-- The parameters of a candidate. `sqrt` is the power of one half. -/
structure XsArgs where
  sqrt : ℚ → ℚ
  lookback : ℤ
  longShort : Bool
  volScaled : Bool

/-- `_sample_stdev` (lines 200–207). -/
def sampleStdev (sqrt : ℚ → ℚ) (values : List ℚ) : Option ℚ :=
  if values.length < 2 then none
  else
    let mean := values.sum / values.length
    let variance : ℚ := (values.map fun item => (item - mean) ^ 2).sum / (values.length - 1 : ℕ)
    if variance ≤ 0 then none else some (sqrt variance)

/-- The score of an asset with these prices (lines 258–267), if it can be ranked. -/
def xsScore (args : XsArgs) (prices : List ℚ) : Option ℚ :=
  if prices.any (· ≤ 0) then none
  else
    let trailing := prices.getLastD 0 / prices.headD 0 - 1
    if args.volScaled then
      (sampleStdev args.sqrt (simpleReturns prices)).map fun vol => trailing / vol
    else some trailing

/-- The day of a place, with the first and the last of the ranked assets (lines 254–275). The
prices are the closes on a day of the window. -/
def rankedDay (args : XsArgs) (price : String → Time → ℚ) (days : List Time) (index : ℕ) :
    Option (Time × String × String) :=
  let window := (days.take (index + 1)).drop (index - args.lookback.toNat)
  let scores := xsUniverse.filterMap fun asset =>
    (xsScore args (window.map (price asset))).map fun score => (score, asset)
  if scores.length < 3 then none
  else
    let ranked := scores.insertionSort fun a b => rankKey a ≤ rankKey b
    let top := (ranked.head?.map Prod.snd).getD ""
    let bottom := (ranked.getLast?.map Prod.snd).getD ""
    if top = bottom then none else some ((days[index]?).getD 0, top, bottom)

/-- The positions of an asset (lines 276–282): each ranked day adds one to every asset. -/
def assignments (args : XsArgs) (price : String → Time → ℚ) (days : List Time) (asset : String) :
    PositionSeries :=
  (List.range' args.lookback.toNat (days.length - args.lookback.toNat)).filterMap fun index =>
    (rankedDay args price days index).map fun day =>
      (day.1,
        if asset = day.2.1 then 1
        else if args.longShort = true ∧ asset = day.2.2 then -1
        else 0)

/-- `closes[asset][day]`. -/
def priceOf (closes : Dict String (Dict Time ℚ)) (asset : String) (day : Time) : ℚ :=
  ((closesAt closes asset).get? day).getD 0

/-- `xs_momentum_signals` (lines 238–288). With a negative lookback the loop comes to a place
before the first day, or to an empty window. -/
def xsMomentumSignals (args : XsArgs) (histories : Dict String (List Candle)) :
    Except ResearchError (Dict String PositionSeries) :=
  let closes := closesByCanonical histories
  let days := alignedTripleDays closes
  if days.length < args.lookback + 1 then .ok .empty
  else if args.lookback < 0 then
    .error (.fatal (if days.length < -args.lookback then "IndexError" else "ValueError"))
  else
    let perAsset := assignments args (priceOf closes) days
    if xsUniverse.all fun asset => (perAsset asset).isEmpty then .ok .empty
    else .ok (aliasToCanonical.map fun _ canonical => perAsset canonical)

/-- The words of `CrossSectionalMomentumVoter` (lines 291–331). -/
def xsMomentumWords : VoterWords :=
  ⟨"xs_momentum: no same-bar assignment (skipped day)", "xs_momentum assignment="⟩

/-! ## The closes of an asset -/

theorem addCloses_empty (candles : List Candle) :
    addCloses .empty candles = closesByTime (fun candle => 0 < candle.close) candles := by
  rw [addCloses, closesByTime, Dict.ofList, List.foldl_map, List.foldl_filter]
  simp only [decide_eq_true_eq]

/-- An asset's closes are added by its histories, one after the other. -/
theorem closesAt_foldl (asset : String) (histories : List (List Candle))
    (out : Dict String (Dict Time ℚ)) :
    closesAt (histories.foldl addHistory out) asset
      = (histories.filter fun candles => assetOf aliasToCanonical candles = some asset).foldl
          addCloses (closesAt out asset) := by
  induction histories generalizing out with
  | nil => rfl
  | cons candles histories ih =>
    rw [List.foldl_cons, ih]
    cases hof : assetOf aliasToCanonical candles with
    | none =>
      rw [List.filter_cons_of_neg (by simp [hof])]
      simp only [addHistory, hof]
    | some canonical =>
      by_cases hasset : canonical = asset
      · subst hasset
        rw [List.filter_cons_of_pos (by simp [hof]), List.foldl_cons]
        simp only [addHistory, hof, closesAt, Dict.get?_set_self, Option.getD_some]
      · rw [List.filter_cons_of_neg (by simpa [hof] using hasset)]
        simp only [addHistory, hof, closesAt, Dict.get?_set_of_ne _ (Ne.symm hasset)]

/-- **The closes of an asset** are those of its one history. -/
theorem closesAt_closesByCanonical {histories : Dict String (List Candle)}
    (hwf : WellFormed aliasToCanonical histories) {asset : String} (hasset : asset ∈ xsUniverse) :
    closesAt (closesByCanonical histories) asset
      = closesByTime (fun candle => 0 < candle.close)
          (barsOf aliasToCanonical histories asset) := by
  have hempty : ∀ name ∈ xsUniverse, closesAt
      (Dict.ofList (xsUniverse.map fun name => (name, (.empty : Dict Time ℚ)))) name = .empty := by
    decide
  have hone := length_filter_assetOf hwf asset
  rw [closesByCanonical, closesAt_foldl, hempty asset hasset, barsOf, historiesByAlias,
    get?_lastBy]
  rcases hof : histories.values.filter fun candles =>
      assetOf aliasToCanonical candles = some asset with _ | ⟨candles, _ | ⟨other, rest⟩⟩
  · rfl
  · exact addCloses_empty candles
  · rw [hof] at hone
    simp at hone

/-- Without the early return, there are no days either. -/
theorem alignedTripleDays_eq (closes : Dict String (Dict Time ℚ)) :
    alignedTripleDays closes = alignedDays (xsUniverse.map (closesAt closes)) := by
  unfold alignedTripleDays
  split
  next hempty =>
    obtain ⟨name, hname, hnone⟩ := List.any_eq_true.mp hempty
    symm
    refine List.eq_nil_iff_forall_not_mem.mpr fun day hday => ?_
    have hsome := (mem_alignedDays (by simp [xsUniverse])).mp hday _ (List.mem_map_of_mem hname)
    rw [Dict.get?, List.isEmpty_iff.mp hnone] at hsome
    cases hsome
  · rfl

/-! ## Point in time -/

section

variable {args : XsArgs} {price price' : String → Time → ℚ} {days days' : List Time} {t : Time}

theorem rankedDay_concat {day : Time} {index : ℕ} (h : index < days.length) :
    rankedDay args price (days ++ [day]) index = rankedDay args price days index := by
  have hwindow : (days ++ [day]).take (index + 1) = days.take (index + 1) :=
    List.take_append_of_le_length h
  rw [rankedDay, rankedDay, hwindow, List.getElem?_append_left h]

/-- A ranked day is the day of its place. -/
theorem day_of_rankedDay {index : ℕ} {ranked : Time × String × String}
    (h : rankedDay args price days index = some ranked) : ranked.1 = (days[index]?).getD 0 := by
  unfold rankedDay at h
  dsimp only at h
  split at h
  · cases h
  · split at h
    · cases h
    · cases h
      rfl

theorem rankedDay_congr (h : ∀ asset ∈ xsUniverse, ∀ day ∈ days, price asset day = price' asset day)
    (index : ℕ) : rankedDay args price days index = rankedDay args price' days index := by
  have hscores : (xsUniverse.filterMap fun asset =>
      (xsScore args (((days.take (index + 1)).drop (index - args.lookback.toNat)).map
        (price asset))).map fun score => (score, asset))
        = xsUniverse.filterMap fun asset =>
          (xsScore args (((days.take (index + 1)).drop (index - args.lookback.toNat)).map
            (price' asset))).map fun score => (score, asset) := by
    refine List.filterMap_congr fun asset hasset => ?_
    have hprices : ((days.take (index + 1)).drop (index - args.lookback.toNat)).map (price asset)
        = ((days.take (index + 1)).drop (index - args.lookback.toNat)).map (price' asset) := by
      refine List.map_congr_left fun day hday => ?_
      exact h asset hasset day (List.mem_of_mem_take (List.mem_of_mem_drop hday))
    rw [hprices]
  unfold rankedDay
  dsimp only
  rw [hscores]

/-- **No later day changes a position.** -/
theorem assignments_ignoresNext (args : XsArgs) (price : String → Time → ℚ) (asset : String) :
    IgnoresNext (fun day : Time => day) fun days t =>
      lookup 0 (assignments args price days asset) t := by
  refine ignoresNext_filterMap args.lookback.toNat ?_ ?_
  · intro days day index hindex
    rw [rankedDay_concat hindex]
  · intro days day e hnew
    obtain ⟨ranked, hranked, rfl⟩ := Option.map_eq_some_iff.mp hnew
    have hday := day_of_rankedDay hranked
    rwa [List.getElem?_concat_length, Option.getD_some] at hday

/-- **The positions at a moment** are decided by the days up to it, and the closes on them. -/
theorem lookup_assignments_eq (hdays : days.Pairwise fun a b => a < b)
    (hdays' : days'.Pairwise fun a b => a < b)
    (hupTo : upTo (fun day => day) t days = upTo (fun day => day) t days')
    (hprice : ∀ asset ∈ xsUniverse, ∀ day ≤ t, price asset day = price' asset day)
    (asset : String) :
    lookup 0 (assignments args price days asset) t
      = lookup 0 (assignments args price' days' asset) t := by
  have hsame : assignments args price (upTo (fun day => day) t days) asset
      = assignments args price' (upTo (fun day => day) t days) asset := by
    unfold assignments
    refine List.filterMap_congr fun index _ => ?_
    rw [rankedDay_congr fun asset hasset day hday => hprice asset hasset day (mem_upTo.mp hday).2]
  calc lookup 0 (assignments args price days asset) t
      = lookup 0 (assignments args price (upTo (fun day => day) t days) asset) t :=
        read_upTo (assignments_ignoresNext args price asset) hdays t
    _ = lookup 0 (assignments args price' (upTo (fun day => day) t days') asset) t := by
        rw [hsame, hupTo]
    _ = lookup 0 (assignments args price' days' asset) t :=
        (read_upTo (assignments_ignoresNext args price' asset) hdays' t).symm

end

section

variable {args : XsArgs} {histories histories' : Dict String (List Candle)}
  {mapping mapping' : Dict String PositionSeries} {t : Time}

/-- What the mapping says of an alias at a moment is what its asset was assigned. -/
theorem lookup_of_xsMomentumSignals (h : xsMomentumSignals args histories = .ok mapping)
    (key : String) (t : Time) :
    lookup 0 ((mapping.get? key).getD []) t
      = (aliasToCanonical.get? key).elim 0 fun asset =>
          lookup 0 (assignments args (priceOf (closesByCanonical histories))
            (alignedTripleDays (closesByCanonical histories)) asset) t := by
  have hassets : ∀ asset, aliasToCanonical.get? key = some asset → asset ∈ xsUniverse := by
    have hvalues : ∀ e ∈ aliasToCanonical.entries, e.2 ∈ xsUniverse := by decide +kernel
    exact fun asset hasset => hvalues (key, asset) (Dict.mem_entries_iff.mpr hasset)
  unfold xsMomentumSignals at h
  dsimp only at h
  split at h
  next hshort =>
    -- too few days for a single turn of the loop
    cases h
    cases aliasToCanonical.get? key with
    | none => rfl
    | some asset =>
      have hnone : (alignedTripleDays (closesByCanonical histories)).length
          - args.lookback.toNat = 0 := by omega
      rw [Option.elim_some, assignments, hnone]
      rfl
  · split at h
    · cases h
    · split at h
      next hempty =>
        cases h
        cases hasset : aliasToCanonical.get? key with
        | none => rfl
        | some asset =>
          have hnone := List.all_eq_true.mp hempty asset (hassets asset hasset)
          rw [Option.elim_some, List.isEmpty_iff.mp hnone]
          rfl
      · cases h
        rw [Dict.get?_map]
        cases aliasToCanonical.get? key with
        | none => rfl
        | some asset => rfl

theorem keys_of_xsMomentumSignals (h : xsMomentumSignals args histories = .ok mapping) :
    ∀ key ∈ mapping.keys, key ∈ aliasToCanonical.keys := by
  unfold xsMomentumSignals at h
  dsimp only at h
  intro key hkey
  split at h
  · cases h
    cases hkey
  · split at h
    · cases h
    · split at h
      · cases h
        cases hkey
      · cases h
        rwa [Dict.keys, Dict.map, List.map_map] at hkey

/-- **The voters of two runs vote alike** where the bars agree up to the moment. -/
theorem sameVotes_xsMomentumSignals (hwf : WellFormed aliasToCanonical histories)
    (hwf' : WellFormed aliasToCanonical histories') (hagree : AgreeUpTo t histories histories')
    (h : xsMomentumSignals args histories = .ok mapping)
    (h' : xsMomentumSignals args histories' = .ok mapping') :
    SameVotes xsMomentumWords t mapping mapping' := by
  have hcloses : ∀ asset ∈ xsUniverse, ∀ day ≤ t,
      (closesAt (closesByCanonical histories) asset).get? day
        = (closesAt (closesByCanonical histories') asset).get? day := by
    intro asset hasset day hday
    rw [closesAt_closesByCanonical hwf hasset, closesAt_closesByCanonical hwf' hasset]
    exact closesByTime_eq hwf hwf' hagree asset hday
  have hdays : ClosesAgree t (xsUniverse.map (closesAt (closesByCanonical histories)))
      (xsUniverse.map (closesAt (closesByCanonical histories'))) :=
    List.forall₂_map_left_iff.mpr (List.forall₂_map_right_iff.mpr (List.forall₂_same.mpr hcloses))
  refine sameVotes_of_lookup
    (fun key hkey => upper_aliasToCanonical key (keys_of_xsMomentumSignals h key hkey))
    (fun key hkey => upper_aliasToCanonical key (keys_of_xsMomentumSignals h' key hkey))
    fun key => ?_
  rw [lookup_of_xsMomentumSignals h, lookup_of_xsMomentumSignals h', alignedTripleDays_eq,
    alignedTripleDays_eq]
  cases aliasToCanonical.get? key with
  | none => rfl
  | some asset =>
    refine lookup_assignments_eq (ascending_alignedDays _) (ascending_alignedDays _)
      (upTo_alignedDays hdays) ?_ asset
    intro asset hasset day hday
    rw [priceOf, priceOf, hcloses asset hasset day hday]

end

end TraderStack
