import TraderStack.Research.MilesSearch

/-!
# The slices of a second print (second_print.py, daily_robustness.py)

A second print is scored on the last bars of another venue's histories that open before a
cutoff: the first bar of the Kraken BTC history, or a documented date where there is none.

- `mem_sliceEndingBefore`: a slice ends before its cutoff;
- `bars_of_remapped`: every bar of a remapped history does.
-/

namespace TraderStack

open Lib MilesSearch

/-- `SECOND_PRINT_BARS`. -/
def secondPrintBars : ℕ := 720

/-- `DOCUMENTED_PRIMARY_FIRST_ISO`, 2024-09-22T00:00:00+00:00. -/
def documentedPrimaryFirst : Time := 1726963200

/-- `BINANCE_TO_SCORE_SYMBOL`. -/
def binanceToScoreSymbol : String → Option String
  | "BTCUSDT" => some "BTC/USD"
  | "ETHUSDT" => some "ETH/USD"
  | "SOLUSDT" => some "SOL/USD"
  | _ => none

/-- The histories by their keys. -/
abbrev Histories := Dict String (List Candle)

/-- Is it a history of an asset on the interval, and not from Yahoo? -/
def isHistoryOf (asset interval : String) (candles : List Candle) : Bool :=
  candles.head?.any fun first =>
    first.interval == interval && Text.upper first.symbol == Text.upper asset &&
      !isYahooSymbol first.symbol

/-- `kraken_daily_candles` (daily_robustness.py:104–119), on daily candles. -/
def krakenDailyCandles (histories : Histories) (asset : String) : Option (List Candle) :=
  histories.values.find? (isHistoryOf asset "1d")

/-- `primary_first_opened_at` (second_print.py:122–131). -/
def primaryFirstOpenedAt (histories : Histories) : Time × String :=
  match (krakenDailyCandles histories "BTC/USD").bind List.head? with
  | some first => (first.openedAt, "this_run_kraken_btc_first_bar")
  | none => (documentedPrimaryFirst, "documented_primary_first_iso")

/-- `slice_ending_before` (second_print.py:149–159): the last bars that open before a
moment. -/
def sliceEndingBefore (before : Time) (candles : List Candle) : List Candle :=
  let eligible := candles.filter fun item => item.openedAt < before
  if eligible.length ≤ secondPrintBars then eligible
  else eligible.drop (eligible.length - secondPrintBars)

/-- One history of `remap_binance_for_scoring`. -/
def remapOne (remapped : Histories) (candles : List Candle) : Histories :=
  match candles with
  | [] => remapped
  | first :: _ =>
    match binanceToScoreSymbol (Text.upper first.symbol) with
    | none => remapped
    | some target =>
      remapped.set (target ++ "@" ++ first.interval)
        (candles.map fun item => { item with symbol := target })

/-- `remap_binance_for_scoring` (second_print.py:162–182). -/
def remapBinanceForScoring (histories : Histories) : Histories :=
  histories.values.foldl remapOne Dict.empty

/-- `_overlaps_primary` (second_print.py:208–209). -/
def overlapsPrimary (candles : List Candle) (primaryFirst : Time) : Bool :=
  candles.any fun item => primaryFirst ≤ item.openedAt

/-! ## What a slice holds -/

section

variable {before : Time} {candles : List Candle} {histories : Histories}

theorem sublist_sliceEndingBefore : (sliceEndingBefore before candles).Sublist candles := by
  unfold sliceEndingBefore
  dsimp only
  split
  · exact List.filter_sublist
  · exact (List.drop_sublist _ _).trans List.filter_sublist

/-- **A slice ends before its cutoff.** -/
theorem mem_sliceEndingBefore {item : Candle} (h : item ∈ sliceEndingBefore before candles) :
    item.openedAt < before := by
  have hmem : item ∈ candles.filter fun item => item.openedAt < before := by
    unfold sliceEndingBefore at h
    dsimp only at h
    split at h
    · exact h
    · exact List.mem_of_mem_drop h
  exact of_decide_eq_true (List.mem_filter.mp hmem).2

theorem length_sliceEndingBefore_le :
    (sliceEndingBefore before candles).length ≤ secondPrintBars := by
  unfold sliceEndingBefore
  dsimp only
  split
  · assumption
  · rw [List.length_drop]
    omega

/-- What is true of every history, relabelled, is true of every remapped one. -/
theorem remapped_forall {P : List Candle → Prop}
    (hP : ∀ candles ∈ histories.values, ∀ target,
      P (candles.map fun item => { item with symbol := target })) :
    ∀ key bars, (remapBinanceForScoring histories).get? key = some bars → P bars := by
  have hone : ∀ (remapped : Histories) candles, candles ∈ histories.values →
      (∀ key bars, remapped.get? key = some bars → P bars) →
      ∀ key bars, (remapOne remapped candles).get? key = some bars → P bars := by
    intro remapped candles hmem hremapped key bars hget
    unfold remapOne at hget
    split at hget
    · exact hremapped key bars hget
    · split at hget
      · exact hremapped key bars hget
      · rename_i first rest target _
        rw [Dict.get?_set] at hget
        split at hget
        · cases hget
          exact hP _ hmem target
        · exact hremapped key bars hget
  have hall : ∀ (l : List (List Candle)) (remapped : Histories),
      (∀ candles ∈ l, candles ∈ histories.values) →
      (∀ key bars, remapped.get? key = some bars → P bars) →
      ∀ key bars, (l.foldl remapOne remapped).get? key = some bars → P bars := by
    intro l
    induction l with
    | nil => exact fun _ _ h => h
    | cons candles l ih =>
      intro remapped hl hremapped
      rw [List.forall_mem_cons] at hl
      exact ih _ hl.2 (hone remapped candles hl.1 hremapped)
  refine hall histories.values Dict.empty (fun _ h => h) ?_
  intro key bars hget
  rw [Dict.get?_empty] at hget
  cases hget

theorem mem_values_sliced (h : candles ∈ (histories.map fun _ => sliceEndingBefore before).values) :
    ∃ whole ∈ histories.values, candles = sliceEndingBefore before whole := by
  obtain ⟨e, he, rfl⟩ := List.mem_map.mp h
  obtain ⟨e', he', rfl⟩ := List.mem_map.mp he
  exact ⟨e'.2, List.mem_map_of_mem he', rfl⟩

/-- **Every remapped bar** opens before the cutoff of the slices. -/
theorem bars_of_remapped {key : String} {bars : List Candle}
    (h : (remapBinanceForScoring (histories.map fun _ => sliceEndingBefore before)).get? key
      = some bars) : ∀ bar ∈ bars, bar.openedAt < before := by
  refine remapped_forall (P := fun bars => ∀ bar ∈ bars, bar.openedAt < before) ?_ key bars h
  intro candles hmem target bar hbar
  obtain ⟨item, hitem, rfl⟩ := List.mem_map.mp hbar
  obtain ⟨whole, -, rfl⟩ := mem_values_sliced hmem
  have hbefore : item.openedAt < before := mem_sliceEndingBefore hitem
  exact hbefore

/-- Remapped histories keep the order of theirs. -/
theorem sorted_of_remapped
    (hsorted : ∀ candles ∈ histories.values, candles.Pairwise fun a b => a.openedAt ≤ b.openedAt)
    {key : String} {bars : List Candle}
    (h : (remapBinanceForScoring (histories.map fun _ => sliceEndingBefore before)).get? key
      = some bars) : bars.Pairwise fun a b => a.openedAt ≤ b.openedAt := by
  refine remapped_forall (P := List.Pairwise fun a b => a.openedAt ≤ b.openedAt) ?_ key bars h
  intro candles hmem target
  obtain ⟨whole, hwhole, rfl⟩ := mem_values_sliced hmem
  exact List.pairwise_map.mpr ((hsorted whole hwhole).sublist sublist_sliceEndingBefore)

end

end TraderStack
