import TraderStack.Research.Assignments

/-!
# Bollinger fades and squeezes (bollinger_fade.py)

A fade takes the side of the band that a close leaves; a squeeze waits for a narrow band that
begins to widen, and looks back at so many bandwidths that a series too short for it has none to
look at.

- `bollinger_ignoresNext`: **no later bar changes a position**.
-/

namespace TraderStack

open Lib

/-! ## Bands -/

/-- `BollingerBands` (bollinger_fade.py:254–260). -/
structure BollingerBands where
  mid : ℚ
  upper : ℚ
  lower : ℚ
  bandwidth : ℚ
  stdev : ℚ

/-- The parameters of a candidate. `sqrt` is `math.sqrt`. -/
structure BollingerArgs where
  sqrt : ℚ → ℚ
  period : ℤ
  k : ℚ
  kind : String

/-- `SQUEEZE_PERCENTILE`. -/
def squeezePercentile : ℚ := 20

/-- `SQUEEZE_PERCENTILE_WINDOW`. -/
def squeezePercentileWindow : ℕ := 120

/-- `linear_percentile` (bollinger_fade.py:263–276), of values that are there. -/
def linearPercentile (values : List ℚ) (q : ℚ) : ℚ :=
  let ordered := values.insertionSort (· ≤ ·)
  if ordered.length = 1 then ordered.getD 0 0
  else
    let rank := q / 100 * (ordered.length - 1 : ℕ)
    let low := (truncate rank).toNat
    let high := min (low + 1) (ordered.length - 1)
    let frac := rank - low
    ordered.getD low 0 * (1 - frac) + ordered.getD high 0 * frac

/-- `bollinger_bands_at` (bollinger_fade.py:279–304). -/
def bollingerBandsAt (args : BollingerArgs) (candles : List Candle) (index : ℕ) :
    Option BollingerBands :=
  if args.period < 2 ∨ args.k ≤ 0 ∨ index < args.period - 1 ∨ candles.length ≤ index then none
  else
    let closes :=
      ((candles.take (index + 1)).drop (index + 1 - args.period.toNat)).map Candle.close
    if closes.any (· ≤ 0) then none
    else
      let mid := closes.sum / closes.length
      if mid ≤ 0 then none
      else
        let dev := standardDeviation args.sqrt closes
        let upper := mid + args.k * dev
        let lower := mid - args.k * dev
        some ⟨mid, upper, lower, (upper - lower) / mid, dev⟩

/-! ## Positions -/

/-- `fade_position` (bollinger_fade.py:307–312). -/
def fadePosition (close : ℚ) (bands : BollingerBands) (longOnly : Bool) : ℚ :=
  if close < bands.lower then 1
  else if bands.upper < close then if longOnly then 0 else -1
  else 0

/-- `squeeze_break_position` (bollinger_fade.py:315–332), with its defaults. -/
def squeezeBreakPosition (close : ℚ) (bands : BollingerBands) (priorBandwidths : List ℚ) :
    Option ℚ :=
  if priorBandwidths.length < squeezePercentileWindow then none
  else
    let threshold := linearPercentile
      (priorBandwidths.drop (priorBandwidths.length - squeezePercentileWindow)) squeezePercentile
    let prior := priorBandwidths.getLast?.getD 0
    if prior ≤ threshold ∧ prior < bands.bandwidth ∧ bands.mid < close then some 1 else some 0

/-- `min_bars_for` (bollinger_fade.py:335–338). -/
def minBarsFor (period : ℤ) (kind : String) : ℤ :=
  if kind = "squeeze" then period + squeezePercentileWindow else period

/-- The variables of the loop. -/
structure BandState where
  bandwidths : List ℚ
  out : PositionSeries

/-- One bar of `bollinger_position_series` (bollinger_fade.py:353–370). -/
def BandState.next (args : BollingerArgs) (candles : List Candle) (s : BandState) (index : ℕ) :
    BandState :=
  match bollingerBandsAt args candles index with
  | none => s
  | some bands =>
    let close := closeAt candles index
    let value :=
      if args.kind = "squeeze" then squeezeBreakPosition close bands s.bandwidths
      else some (fadePosition close bands (args.kind = "lo_fade"))
    ⟨s.bandwidths ++ [bands.bandwidth],
      match value with
      | none => s.out
      | some value => s.out ++ [(momentAt candles index, value)]⟩

/-- The first bar with a full band. -/
def BollingerArgs.first (args : BollingerArgs) : ℕ := (args.period - 1).toNat

/-- `bollinger_position_series` (bollinger_fade.py:341–371). -/
def bollingerPositionSeries (args : BollingerArgs) (candles : List Candle) : PositionSeries :=
  if args.period < 2 ∨ candles.length < minBarsFor args.period args.kind then []
  else
    ((List.range' args.first (candles.length - args.first)).foldl (BandState.next args candles)
      ⟨[], []⟩).out

/-- `bollinger_signals` (bollinger_fade.py:388–408). -/
def bollingerSignals (args : BollingerArgs) (histories : Dict String (List Candle)) :
    Dict String PositionSeries :=
  signalsOf aliasToCanonical (bollingerPositionSeries args) histories

/-- The words of `BollingerFadeVoter` (bollinger_fade.py:411–453). -/
def bollingerWords : VoterWords :=
  ⟨"bollinger: no same-bar assignment (warmup / skipped)", "bollinger assignment="⟩

/-! ## Later bars -/

theorem bollingerPositionSeries_nil (args : BollingerArgs) :
    bollingerPositionSeries args [] = [] := by
  by_cases hperiod : args.period < 2
  · exact if_pos (Or.inl hperiod)
  · have hfull : ([] : List Candle).length < minBarsFor args.period args.kind := by
      unfold minBarsFor
      split
      · have hwindow : (0 : ℤ) ≤ squeezePercentileWindow := Int.natCast_nonneg _
        simp only [List.length_nil, Nat.cast_zero]
        omega
      · simp only [List.length_nil, Nat.cast_zero]
        omega
    exact if_pos (Or.inr hfull)

section

variable {args : BollingerArgs} {candles : List Candle} {candle : Candle} {index : ℕ}

theorem bollingerBandsAt_concat (h : index < candles.length) :
    bollingerBandsAt args (candles ++ [candle]) index = bollingerBandsAt args candles index := by
  have hlength : (candles ++ [candle]).length ≤ index ↔ candles.length ≤ index := by
    rw [List.length_append, List.length_singleton]
    omega
  unfold bollingerBandsAt
  rw [List.take_append_of_le_length h]
  simp only [hlength]

theorem BandState.next_concat (h : index < candles.length) (s : BandState) :
    s.next args (candles ++ [candle]) index = s.next args candles index := by
  unfold BandState.next
  rw [bollingerBandsAt_concat h, closeAt_concat h, momentAt_concat h]

/-- A squeeze has nothing to look back at in so few turns. -/
theorem out_squeeze_short (hkind : args.kind = "squeeze") (places : List ℕ) (s : BandState)
    (h : s.bandwidths.length + places.length ≤ squeezePercentileWindow) :
    (places.foldl (BandState.next args candles) s).out = s.out := by
  induction places generalizing s with
  | nil => rfl
  | cons index places ih =>
    rw [List.length_cons] at h
    have hnext : (s.next args candles index).out = s.out ∧
        (s.next args candles index).bandwidths.length ≤ s.bandwidths.length + 1 := by
      unfold BandState.next
      cases bollingerBandsAt args candles index with
      | none => exact ⟨rfl, Nat.le_succ _⟩
      | some bands =>
        dsimp only
        rw [if_pos hkind, squeezeBreakPosition, if_pos (by omega), List.length_append]
        exact ⟨rfl, le_rfl⟩
    rw [List.foldl_cons, ih _ (by omega), hnext.1]

/-- Without bands there is nothing to report. -/
theorem out_of_no_bands (h : ∀ index, bollingerBandsAt args candles index = none)
    (places : List ℕ) (s : BandState) :
    (places.foldl (BandState.next args candles) s) = s := by
  induction places generalizing s with
  | nil => rfl
  | cons index places ih =>
    have hnext : s.next args candles index = s := by
      unfold BandState.next
      rw [h index]
    rw [List.foldl_cons, hnext, ih]

end

/-- **No later bar changes a Bollinger position.** -/
theorem bollinger_ignoresNext (args : BollingerArgs) :
    IgnoresNext Candle.openedAt fun candles t =>
      lookup 0 (bollingerPositionSeries args candles) t := by
  have hguard : bollingerPositionSeries args = fun candles =>
      if 2 ≤ args.period ∧ minBarsFor args.period args.kind ≤ candles.length then
        ((List.range' args.first (candles.length - args.first)).foldl
          (BandState.next args candles) ⟨[], []⟩).out
      else [] := by
    funext candles
    unfold bollingerPositionSeries
    by_cases hshort : args.period < 2 ∨
        (candles.length : ℤ) < minBarsFor args.period args.kind
    · rw [if_pos hshort, if_neg (by omega)]
    · rw [if_neg hshort, if_pos (by omega)]
  rw [hguard]
  refine ignoresNext_guarded (ignoresNext_foldl (⟨[], []⟩ : BandState) args.first ?_ ?_) ?_ ?_
  · exact fun candles candle s index hindex => BandState.next_concat hindex s
  · intro candles candle s
    unfold BandState.next
    rw [momentAt_last]
    cases bollingerBandsAt args (candles ++ [candle]) candles.length with
    | none => exact Or.inl rfl
    | some bands =>
      dsimp only
      split
      · exact Or.inl rfl
      · exact Or.inr ⟨_, rfl⟩
  · rintro candles candle ⟨hperiod, hlong⟩
    refine ⟨hperiod, ?_⟩
    rw [List.length_append]
    push_cast
    omega
  · intro candles t hstopped
    by_cases hperiod : 2 ≤ args.period
    · have hshort : (candles.length : ℤ) < minBarsFor args.period args.kind := by
        by_contra hlong
        exact hstopped ⟨hperiod, not_lt.mp hlong⟩
      have hfirst : (args.first : ℤ) = args.period - 1 := by
        rw [BollingerArgs.first]
        omega
      unfold minBarsFor at hshort
      split at hshort
      next hkind =>
        have hturns : (⟨[], []⟩ : BandState).bandwidths.length +
            (List.range' args.first (candles.length - args.first)).length
              ≤ squeezePercentileWindow := by
          rw [List.length_nil, List.length_range']
          omega
        rw [out_squeeze_short hkind _ _ hturns, lookup_nil]
      next =>
        have hnone : candles.length - args.first = 0 := by omega
        rw [hnone]
        rfl
    · have hnone : ∀ index, bollingerBandsAt args candles index = none := by
        intro index
        rw [bollingerBandsAt, if_pos (Or.inl (not_le.mp hperiod))]
      rw [out_of_no_bands hnone, lookup_nil]

end TraderStack
