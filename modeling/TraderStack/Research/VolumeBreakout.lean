import TraderStack.Research.Assignments

/-!
# Volume-confirmed breakouts (volume_breakout.py, donchian_breakout.py)

A breakout of the prior channel counts when the bar's volume is above a multiple of its prior
average; a surge asks for the volume and an up-close alone. A series without enough usable
volume has no positions at all. On such a series no bar is ever confirmed, so what is missing is
flat.

- `volbrk_ignoresNext`, `volsurge_ignoresNext`: **no later bar changes a position**.
-/

namespace TraderStack

open Lib

/-! ## Channels and volumes -/

/-- `prior_channel` (donchian_breakout.py:232–243). -/
def priorChannel (candles : List Candle) (index : ℕ) (channelN : ℤ) : Option (ℚ × ℚ) :=
  if channelN ≤ 0 ∨ index < channelN then none
  else
    let window := (candles.take index).drop (index - channelN.toNat)
    if window.length < channelN then none
    else
      (window.map Candle.high).max?.bind fun high =>
        (window.map Candle.low).min?.map fun low => (high, low)

/-- `bar_has_usable_volume` (volume_breakout.py:230–231). -/
def barHasUsableVolume (candle : Candle) : Bool := 0 < candle.volume

/-- `series_has_usable_volume` (volume_breakout.py:234–242). -/
def seriesHasUsableVolume (candles : List Candle) (volLookback : ℤ) : Bool :=
  if volLookback ≤ 0 then false else volLookback + 1 ≤ candles.countP barHasUsableVolume

/-- `prior_volume_sma` (volume_breakout.py:245–259). -/
def priorVolumeSma (candles : List Candle) (index : ℕ) (volLookback : ℤ) : Option ℚ :=
  if volLookback ≤ 0 ∨ index < volLookback then none
  else
    let window := (candles.take index).drop (index - volLookback.toNat)
    if window.length < volLookback then none
    else if (window.map Candle.volume).any (· ≤ 0) then none
    else some ((window.map Candle.volume).sum / volLookback)

/-- `volume_confirmed` (volume_breakout.py:262–278). -/
def volumeConfirmed (candles : List Candle) (index : ℕ) (volLookback : ℤ) (volMult : ℚ) :
    Option Bool :=
  candles[index]?.bind fun today =>
    if today.volume ≤ 0 then none
    else
      (priorVolumeSma candles index volLookback).bind fun sma =>
        if sma ≤ 0 then none else some (sma * volMult < today.volume)

/-! ## The position series -/

/-- The parameters of a candidate. -/
structure VolumeArgs where
  channelN : ℤ
  volLookback : ℤ
  volMult : ℚ
  longShort : Bool

/-- The variables of the breakout loop. -/
structure BreakoutState where
  position : ℚ
  out : PositionSeries

/-- One bar of `volbrk_position_series` (volume_breakout.py:298–318). -/
def BreakoutState.next (args : VolumeArgs) (candles : List Candle) (s : BreakoutState)
    (index : ℕ) : BreakoutState :=
  let position :=
    match priorChannel candles index args.channelN,
        volumeConfirmed candles index args.volLookback args.volMult with
    | some (priorHigh, priorLow), some confirmed =>
      let close := closeAt candles index
      if priorHigh < close ∧ confirmed then 1
      else if close < priorLow then
        if args.longShort then if confirmed then -1 else s.position else 0
      else s.position
    | _, _ => s.position
  ⟨position, s.out ++ [(momentAt candles index, position)]⟩

/-- `warmup`. -/
def VolumeArgs.warmup (args : VolumeArgs) : ℕ := (max args.channelN args.volLookback).toNat

/-- The loop over the bars before a place. -/
def breakoutsTo (args : VolumeArgs) (candles : List Candle) (stop : ℕ) : BreakoutState :=
  (List.range' args.warmup (stop - args.warmup)).foldl (BreakoutState.next args candles) ⟨0, []⟩

/-- `volbrk_position_series` (volume_breakout.py:281–319). -/
def volbrkPositionSeries (args : VolumeArgs) (candles : List Candle) : PositionSeries :=
  if args.channelN ≤ 0 ∨ args.volLookback ≤ 0 ∨ candles.length < args.warmup + 1 then []
  else if seriesHasUsableVolume candles args.volLookback then
    (breakoutsTo args candles candles.length).out
  else []

/-- The position of a surge on a bar, if its volume can be judged
(volume_breakout.py:334–348). -/
def surgeAt (args : VolumeArgs) (candles : List Candle) (index : ℕ) : Option (Time × ℚ) :=
  (volumeConfirmed candles index args.volLookback args.volMult).bind fun confirmed =>
    let close := closeAt candles index
    let priorClose := closeAt candles (index - 1)
    if close ≤ 0 ∨ priorClose ≤ 0 then none
    else some (momentAt candles index, if confirmed ∧ priorClose < close then 1 else 0)

/-- `volsurge_position_series` (volume_breakout.py:322–349). -/
def volsurgePositionSeries (args : VolumeArgs) (candles : List Candle) : PositionSeries :=
  if args.volLookback ≤ 0 ∨ candles.length < args.volLookback + 1 then []
  else if seriesHasUsableVolume candles args.volLookback then
    (List.range' args.volLookback.toNat (candles.length - args.volLookback.toNat)).filterMap
      (surgeAt args candles)
  else []

/-- `volume_breakout_signals` (volume_breakout.py:366–401). -/
def volumeBreakoutSignals (kind : String) (args : VolumeArgs)
    (histories : Dict String (List Candle)) : Dict String PositionSeries :=
  signalsOf aliasToCanonical
    (if kind = "surge" then volsurgePositionSeries args else volbrkPositionSeries args) histories

/-- The words of `VolumeBreakoutVoter` (volume_breakout.py:404–446). -/
def volumeBreakoutWords : VoterWords :=
  ⟨"volbrk: no same-bar assignment (warmup / skipped volume)", "volbrk assignment="⟩

/-! ## What one more bar does not change -/

section

variable {args : VolumeArgs} {candles : List Candle} {candle : Candle} {index : ℕ}

theorem priorChannel_concat (h : index < candles.length) (channelN : ℤ) :
    priorChannel (candles ++ [candle]) index channelN = priorChannel candles index channelN := by
  rw [priorChannel, priorChannel, List.take_append_of_le_length h.le]

theorem volumeConfirmed_concat (h : index < candles.length) (volLookback : ℤ) (volMult : ℚ) :
    volumeConfirmed (candles ++ [candle]) index volLookback volMult
      = volumeConfirmed candles index volLookback volMult := by
  rw [volumeConfirmed, volumeConfirmed, List.getElem?_append_left h, priorVolumeSma,
    priorVolumeSma, List.take_append_of_le_length h.le]

/-- **A bar that is confirmed** is one usable bar after so many others. -/
theorem usable_of_volumeConfirmed {volLookback : ℤ} {volMult : ℚ} {confirmed : Bool}
    (h : volumeConfirmed candles index volLookback volMult = some confirmed) :
    seriesHasUsableVolume candles volLookback = true := by
  obtain ⟨today, htoday, h⟩ := Option.bind_eq_some_iff.mp h
  split at h
  · cases h
  next hvolume =>
    obtain ⟨sma, hsma, -⟩ := Option.bind_eq_some_iff.mp h
    unfold priorVolumeSma at hsma
    split at hsma
    · cases hsma
    next hlookback =>
      dsimp only at hsma
      split at hsma
      · cases hsma
      next hfull =>
        split at hsma
        · cases hsma
        next husable =>
          obtain ⟨hpos, -⟩ := not_or.mp hlookback
          have hindex : index < candles.length := (List.getElem?_eq_some_iff.mp htoday).1
          have hsplit : candles = candles.take index ++ today :: candles.drop (index + 1) := by
            rw [← (List.getElem?_eq_some_iff.mp htoday).2, List.getElem_cons_drop,
              List.take_append_drop]
          have hwindow : ((candles.take index).drop (index - volLookback.toNat)).countP
              barHasUsableVolume
                = ((candles.take index).drop (index - volLookback.toNat)).length := by
            refine List.countP_eq_length.mpr fun c hc => ?_
            have hnone : ((candles.take index).drop (index - volLookback.toNat)).map Candle.volume
                |>.all (fun v => !decide (v ≤ 0)) := by
              simpa using husable
            have hvol := List.all_eq_true.mp hnone c.volume (List.mem_map_of_mem hc)
            simpa [barHasUsableVolume] using hvol
          have hbefore := (List.drop_sublist (index - volLookback.toNat)
            (candles.take index)).countP_le (p := barHasUsableVolume)
          have htoday' : barHasUsableVolume today = true := by
            simpa [barHasUsableVolume] using hvolume
          have hcount : candles.countP barHasUsableVolume
              = (candles.take index).countP barHasUsableVolume
                + ((candles.drop (index + 1)).countP barHasUsableVolume + 1) := by
            conv_lhs => rw [hsplit]
            rw [List.countP_append, List.countP_cons_of_pos htoday']
          unfold seriesHasUsableVolume
          rw [if_neg hpos, decide_eq_true_iff]
          omega

theorem usable_concat {volLookback : ℤ} (h : seriesHasUsableVolume candles volLookback = true) :
    seriesHasUsableVolume (candles ++ [candle]) volLookback = true := by
  unfold seriesHasUsableVolume at h ⊢
  split at h
  · cases h
  next hpos =>
    rw [if_neg hpos, decide_eq_true_iff, List.countP_append]
    have hcount := of_decide_eq_true h
    push_cast
    omega

/-- **Where no bar can be judged** the position stays flat. -/
theorem breakoutsTo_flat (h : ∀ index, priorChannel candles index args.channelN = none ∨
    volumeConfirmed candles index args.volLookback args.volMult = none) (stop : ℕ) :
    ∀ e ∈ (breakoutsTo args candles stop).out, e.2 = 0 := by
  have hrun : ∀ (places : List ℕ) (s : BreakoutState), s.position = 0 ∧ (∀ e ∈ s.out, e.2 = 0) →
      (places.foldl (BreakoutState.next args candles) s).position = 0 ∧
        ∀ e ∈ (places.foldl (BreakoutState.next args candles) s).out, e.2 = 0 := by
    intro places
    induction places with
    | nil => exact fun _ hs => hs
    | cons index places ih =>
      rintro s ⟨hposition, hout⟩
      have hkept : (s.next args candles index).position = s.position := by
        unfold BreakoutState.next
        rcases h index with hnone | hnone
        · rw [hnone]
        · rw [hnone]
          cases priorChannel candles index args.channelN <;> rfl
      have hreport : (s.next args candles index).out
          = s.out ++ [(momentAt candles index, (s.next args candles index).position)] := rfl
      refine ih _ ⟨hkept.trans hposition, ?_⟩
      rw [hreport, hkept, hposition]
      intro e he
      rcases List.mem_append.mp he with hbefore | hnew
      · exact hout e hbefore
      · rw [List.mem_singleton.mp hnew]
  exact (hrun _ _ ⟨rfl, fun e he => absurd he List.not_mem_nil⟩).2

end

/-! ## Later bars -/

theorem volbrkPositionSeries_nil (args : VolumeArgs) : volbrkPositionSeries args [] = [] :=
  if_pos (Or.inr (Or.inr (Nat.succ_pos _)))

theorem volsurgePositionSeries_nil (args : VolumeArgs) : volsurgePositionSeries args [] = [] := by
  by_cases hlookback : args.volLookback ≤ 0
  · exact if_pos (Or.inl hlookback)
  · have hshort : (0 : ℤ) < args.volLookback + 1 := by omega
    exact if_pos (Or.inr hshort)

/-- Without a guard, the loop reports every bar at its own time. -/
theorem breakouts_ignoresNext (args : VolumeArgs) :
    IgnoresNext Candle.openedAt fun candles t =>
      lookup 0 (breakoutsTo args candles candles.length).out t := by
  refine ignoresNext_foldl (⟨0, []⟩ : BreakoutState) args.warmup ?_ ?_
  · intro candles candle s index hindex
    unfold BreakoutState.next
    rw [priorChannel_concat hindex, volumeConfirmed_concat hindex, closeAt_concat hindex,
      momentAt_concat hindex]
  · intro candles candle s
    unfold BreakoutState.next
    rw [momentAt_last]
    exact Or.inr ⟨_, rfl⟩

/-- **No later bar changes a breakout position.** -/
theorem volbrk_ignoresNext (args : VolumeArgs) :
    IgnoresNext Candle.openedAt fun candles t =>
      lookup 0 (volbrkPositionSeries args candles) t := by
  have hguard : volbrkPositionSeries args = fun candles =>
      if (0 < args.channelN ∧ 0 < args.volLookback ∧ args.warmup + 1 ≤ candles.length) ∧
          seriesHasUsableVolume candles args.volLookback = true then
        (breakoutsTo args candles candles.length).out
      else [] := by
    funext candles
    unfold volbrkPositionSeries
    by_cases hshort : args.channelN ≤ 0 ∨ args.volLookback ≤ 0 ∨ candles.length < args.warmup + 1
    · rw [if_pos hshort, if_neg (by omega)]
    · rw [if_neg hshort]
      have hlong : 0 < args.channelN ∧ 0 < args.volLookback ∧ args.warmup + 1 ≤ candles.length := by
        omega
      simp only [hlong, true_and, and_self]
  rw [hguard]
  refine ignoresNext_guarded (breakouts_ignoresNext args) ?_ ?_
  · rintro candles candle ⟨⟨hchannel, hlookback, hlong⟩, husable⟩
    refine ⟨⟨hchannel, hlookback, ?_⟩, usable_concat husable⟩
    rw [List.length_append]
    omega
  · intro candles t hstopped
    by_cases hlong : args.warmup + 1 ≤ candles.length
    · -- no bar has a channel, or none has a volume to be judged by
      refine lookup_of_forall fun e he _ => breakoutsTo_flat ?_ candles.length e he
      intro index
      by_cases hchannel : 0 < args.channelN
      · right
        by_contra hconfirmed
        obtain ⟨confirmed, hsome⟩ := Option.ne_none_iff_exists'.mp hconfirmed
        have husable := usable_of_volumeConfirmed hsome
        have hlookback : 0 < args.volLookback := by
          by_contra hnot
          rw [seriesHasUsableVolume, if_pos (not_lt.mp hnot)] at husable
          cases husable
        exact hstopped ⟨⟨hchannel, hlookback, hlong⟩, husable⟩
      · left
        rw [priorChannel, if_pos (Or.inl (not_lt.mp hchannel))]
    · have hnone : candles.length - args.warmup = 0 := by omega
      rw [breakoutsTo, hnone]
      rfl

theorem surgeAt_concat {args : VolumeArgs} {candles : List Candle} {candle : Candle} {index : ℕ}
    (h : index < candles.length) :
    surgeAt args (candles ++ [candle]) index = surgeAt args candles index := by
  have hbefore : index - 1 < candles.length := by omega
  rw [surgeAt, surgeAt, volumeConfirmed_concat h, closeAt_concat h, closeAt_concat hbefore,
    momentAt_concat h]

/-- **No later bar changes a surge.** -/
theorem volsurge_ignoresNext (args : VolumeArgs) :
    IgnoresNext Candle.openedAt fun candles t =>
      lookup 0 (volsurgePositionSeries args candles) t := by
  have hguard : volsurgePositionSeries args = fun candles =>
      if (0 < args.volLookback ∧ args.volLookback + 1 ≤ candles.length) ∧
          seriesHasUsableVolume candles args.volLookback = true then
        (List.range' args.volLookback.toNat (candles.length - args.volLookback.toNat)).filterMap
          (surgeAt args candles)
      else [] := by
    funext candles
    unfold volsurgePositionSeries
    by_cases hshort : args.volLookback ≤ 0 ∨ (candles.length : ℤ) < args.volLookback + 1
    · rw [if_pos hshort, if_neg (by omega)]
    · rw [if_neg hshort]
      have hlong : 0 < args.volLookback ∧ args.volLookback + 1 ≤ candles.length := by omega
      simp only [hlong, true_and, and_self]
  rw [hguard]
  refine ignoresNext_guarded (ignoresNext_filterMap args.volLookback.toNat ?_ ?_) ?_ ?_
  · exact fun candles candle index hindex => surgeAt_concat hindex
  · intro candles candle e hnew
    obtain ⟨confirmed, -, hsurge⟩ := Option.bind_eq_some_iff.mp hnew
    dsimp only at hsurge
    split at hsurge
    · cases hsurge
    · cases hsurge
      exact momentAt_last candles candle
  · rintro candles candle ⟨⟨hlookback, hlong⟩, husable⟩
    refine ⟨⟨hlookback, ?_⟩, usable_concat husable⟩
    rw [List.length_append]
    push_cast
    omega
  · intro candles t hstopped
    -- a bar that surges has usable volume behind it
    have hnone : ∀ index ∈ List.range' args.volLookback.toNat
        (candles.length - args.volLookback.toNat), surgeAt args candles index = none := by
      intro index hindex
      by_contra hsurge
      obtain ⟨e, hsome⟩ := Option.ne_none_iff_exists'.mp hsurge
      obtain ⟨confirmed, hconfirmed, -⟩ := Option.bind_eq_some_iff.mp hsome
      have husable := usable_of_volumeConfirmed hconfirmed
      have hlookback : 0 < args.volLookback := by
        by_contra hnot
        rw [seriesHasUsableVolume, if_pos (not_lt.mp hnot)] at husable
        cases husable
      have hrange := List.mem_range'_1.mp hindex
      exact hstopped ⟨⟨hlookback, by omega⟩, husable⟩
    rw [List.filterMap_eq_nil_iff.mpr hnone, lookup_nil]

end TraderStack
