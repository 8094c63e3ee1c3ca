import TraderStack.Lib.MonotoneDeque
import TraderStack.Research.Indicators

/-!
# The trailing-stop breakout of the ensemble trend (research/ensemble_trend.py)

One lookback opens on a close above the highest close of the bars before it, and trails a stop at
the middle of that channel. The channel is kept in two monotone deques that slide along the bars;
`prior_close_channel` reads it off the window itself.

- `channel_eq`: the fronts of the deques are the channel of the window;
- `lookbackStateSeries_eq`: **the sliding series is the plain one**, which recomputes the channel
  at every bar;
- `spellsTrail_plainStateSeries`: within a spell the stop never falls, a spell starts on a close
  above the channel, and a bar that stops out stays out.
-/

namespace TraderStack

open Lib

/-! ## The channel and the stop -/

/-- `prior_close_channel` (ensemble_trend.py:394–407): highest and lowest close of the bars before
one. -/
def priorCloseChannel (candles : List Candle) (index lookback : ℕ) : Option (ℚ × ℚ) :=
  if lookback = 0 ∨ index < lookback then none
  else
    let closes := (trailing lookback index candles).map Candle.close
    if closes.length < lookback then none
    else
      match closes.max?, closes.min? with
      | some high, some low => some (high, low)
      | _, _ => none

/-- The variables of the stop: `in_position` and `stop`. -/
structure Spell where
  inPosition : Bool
  stop : Option ℚ
deriving DecidableEq

/-- Before the first bar. -/
def Spell.flat : Spell := ⟨false, none⟩

/-- One bar under a channel (ensemble_trend.py:440–449). -/
def Spell.next (s : Spell) (priorMax priorMin close : ℚ) : Spell :=
  let midpoint := (priorMax + priorMin) / 2
  if s.inPosition then
    let stop := match s.stop with
      | none => midpoint
      | some stop => max stop midpoint
    if close < stop then ⟨false, none⟩ else ⟨true, some stop⟩
  else if priorMax < close then ⟨true, some midpoint⟩
  else s

/-- What is reported of a bar. -/
structure LookbackBar where
  openedAt : Time
  inPosition : Bool
  stop : Option ℚ
deriving DecidableEq

/-- The report of a bar after which the variables are these. -/
def Spell.report (s : Spell) (openedAt : Time) : LookbackBar := ⟨openedAt, s.inPosition, s.stop⟩

/-! ## The sliding series -/

/-- The variables of the loop. -/
structure ChannelState where
  maxQueue : List ℕ
  minQueue : List ℕ
  spell : Spell
  out : List LookbackBar

section

variable (candles : List Candle)

/-- The deque of the highest close takes a position in (ensemble_trend.py:460–462). -/
def pushMax (queue : List ℕ) (position : ℕ) : List ℕ :=
  pushBack (· ≤ ·) (closeAt candles) queue position

/-- The deque of the lowest close takes a position in (ensemble_trend.py:463–465). -/
def pushMin (queue : List ℕ) (position : ℕ) : List ℕ :=
  pushBack (· ≥ ·) (closeAt candles) queue position

/-- Before the first bar that has a channel (ensemble_trend.py:433–434). -/
def ChannelState.start (lookback : ℕ) : ChannelState where
  maxQueue := (List.range lookback).foldl (pushMax candles) []
  minQueue := (List.range lookback).foldl (pushMin candles) []
  spell := .flat
  out := []

/-- One bar (ensemble_trend.py:435–455). -/
def ChannelState.advance (lookback : ℕ) (s : ChannelState) (index : ℕ) : ChannelState :=
  let priorMax := closeAt candles (s.maxQueue.headD 0)
  let priorMin := closeAt candles (s.minQueue.headD 0)
  let spell := s.spell.next priorMax priorMin (closeAt candles index)
  { maxQueue := popFront (index - lookback) (pushMax candles s.maxQueue index)
    minQueue := popFront (index - lookback) (pushMin candles s.minQueue index)
    spell := spell
    out := s.out ++ [spell.report (momentAt candles index)] }

/-- `lookback_state_series` (ensemble_trend.py:410–456). -/
def lookbackStateSeries (lookback : ℤ) : List LookbackBar :=
  if lookback ≤ 0 ∨ candles.length < lookback + 1 then []
  else
    ((List.range' lookback.toNat (candles.length - lookback.toNat)).foldl
      (ChannelState.advance candles lookback.toNat) (.start candles lookback.toNat)).out

/-! ## The plain series -/

/-- The variables after the first bars, with the channel recomputed at every bar. -/
def spellAfter (lookback : ℕ) : ℕ → Spell
  | 0 => .flat
  | index + 1 =>
    match priorCloseChannel candles index lookback with
    | none => spellAfter lookback index
    | some (high, low) => (spellAfter lookback index).next high low (closeAt candles index)

/-- The report of the bar at an index. -/
def reportAt (lookback index : ℕ) : LookbackBar :=
  (spellAfter candles lookback (index + 1)).report (momentAt candles index)

/-- The series of the machine that recomputes the channel at every bar. -/
def plainStateSeries (lookback : ℤ) : List LookbackBar :=
  if lookback ≤ 0 then []
  else
    (List.range' lookback.toNat (candles.length - lookback.toNat)).map
      (reportAt candles lookback.toNat)

end

/-! ## The fronts of the deques are the channel -/

section

variable {candles : List Candle} {lookback index : ℕ}

/-- The closes of the window before a bar. -/
theorem mem_closes_iff (hindex : index ≤ candles.length) {x : ℚ} :
    x ∈ (trailing lookback index candles).map Candle.close ↔
      ∃ j, index - lookback ≤ j ∧ j < index ∧ closeAt candles j = x := by
  have hlength : (trailing lookback index candles).length = min lookback index :=
    length_trailing hindex
  rw [List.mem_map]
  constructor
  · rintro ⟨c, hc, rfl⟩
    obtain ⟨i, hi, rfl⟩ := List.mem_iff_getElem.mp hc
    have hplace : index - lookback + i < index := by omega
    have hat := getElem?_trailing candles hplace
    rw [List.getElem?_eq_getElem hi] at hat
    refine ⟨index - lookback + i, by omega, hplace, ?_⟩
    rw [closeAt, ← hat]
    rfl
  · rintro ⟨j, hfrom, hlt, rfl⟩
    have hj : j < candles.length := by omega
    have hplace : index - lookback + (j - (index - lookback)) = j := by omega
    have hat := getElem?_trailing (w := lookback) candles (hplace ▸ hlt)
    rw [hplace, List.getElem?_eq_getElem hj] at hat
    refine ⟨candles[j], List.mem_of_getElem? hat, ?_⟩
    rw [closeAt, List.getElem?_eq_getElem hj]
    rfl

/-- **The fronts of the deques are the channel of the window.** -/
theorem channel_eq {maxQueue minQueue : List ℕ} (hpos : 0 < lookback) (hfrom : lookback ≤ index)
    (hindex : index ≤ candles.length)
    (hmax : Survives (· ≤ ·) (closeAt candles) (index - lookback) index maxQueue)
    (hmin : Survives (· ≥ ·) (closeAt candles) (index - lookback) index minQueue) :
    priorCloseChannel candles index lookback =
      some (closeAt candles (maxQueue.headD 0), closeAt candles (minQueue.headD 0)) := by
  have hwindow : index - lookback < index := by omega
  obtain ⟨high, rest, rfl, hhigh, hhigh', hbest⟩ := hmax.front_best hwindow
  obtain ⟨low, rest', rfl, hlow, hlow', hleast⟩ := hmin.front_best hwindow
  have hlength : ((trailing lookback index candles).map Candle.close).length = lookback := by
    rw [List.length_map, length_trailing hindex, min_eq_left hfrom]
  have hmaximum : ((trailing lookback index candles).map Candle.close).max? =
      some (closeAt candles high) := by
    refine List.max?_eq_some_iff.mpr ⟨(mem_closes_iff hindex).mpr ⟨high, hhigh, hhigh', rfl⟩, ?_⟩
    intro x hx
    obtain ⟨j, hj, hj', rfl⟩ := (mem_closes_iff hindex).mp hx
    exact hbest j hj hj'
  have hminimum : ((trailing lookback index candles).map Candle.close).min? =
      some (closeAt candles low) := by
    refine List.min?_eq_some_iff.mpr ⟨(mem_closes_iff hindex).mpr ⟨low, hlow, hlow', rfl⟩, ?_⟩
    intro x hx
    obtain ⟨j, hj, hj', rfl⟩ := (mem_closes_iff hindex).mp hx
    exact hleast j hj hj'
  have hargs : ¬ (lookback = 0 ∨ index < lookback) := by omega
  rw [priorCloseChannel, if_neg hargs]
  dsimp only
  rw [if_neg (by omega), hmaximum, hminimum]
  rfl

variable (candles lookback) in
/-- After the bars before an index: the deques hold the window, and the rest is as in the plain
machine. -/
structure ChannelState.Follows (s : ChannelState) (index : ℕ) : Prop where
  maxQueue : Survives (· ≤ ·) (closeAt candles) (index - lookback) index s.maxQueue
  minQueue : Survives (· ≥ ·) (closeAt candles) (index - lookback) index s.minQueue
  spell : s.spell = spellAfter candles lookback index
  out : s.out = (List.range' lookback (index - lookback)).map (reportAt candles lookback)

/-- Positions that are only pushed. -/
theorem survives_foldl {r : ℚ → ℚ → Prop} [DecidableRel r] [IsTrans ℚ r] [Std.Total r]
    (value : ℕ → ℚ) (n : ℕ) :
    Survives r value 0 n ((List.range n).foldl (fun queue i => pushBack r value queue i) []) := by
  induction n with
  | zero => exact .nil 0
  | succ n ih =>
    rw [List.range_succ, List.foldl_append]
    exact ih.pushBack (Nat.zero_le n)

/-- Before there is a channel nothing is open. -/
theorem spellAfter_of_le (h : index ≤ lookback) : spellAfter candles lookback index = .flat := by
  induction index with
  | zero => rfl
  | succ index ih =>
    rw [spellAfter, priorCloseChannel, if_pos (.inr h)]
    exact ih (by omega)

theorem ChannelState.Follows.start :
    (ChannelState.start candles lookback).Follows candles lookback lookback where
  maxQueue := by
    rw [Nat.sub_self]
    exact survives_foldl _ _
  minQueue := by
    rw [Nat.sub_self]
    exact survives_foldl _ _
  spell := (spellAfter_of_le le_rfl).symm
  out := by
    rw [Nat.sub_self]
    rfl

/-- **One bar.** -/
theorem ChannelState.Follows.advance {s : ChannelState} (h : s.Follows candles lookback index)
    (hpos : 0 < lookback) (hfrom : lookback ≤ index) (hindex : index < candles.length) :
    (s.advance candles lookback index).Follows candles lookback (index + 1) := by
  have hchannel := channel_eq hpos hfrom hindex.le h.maxQueue h.minQueue
  have hnext : index + 1 - lookback = index - lookback + 1 := by omega
  have hspell : (s.advance candles lookback index).spell =
      spellAfter candles lookback (index + 1) := by
    rw [spellAfter, hchannel, ← h.spell]
    rfl
  refine ⟨?_, ?_, hspell, ?_⟩
  · rw [hnext]
    exact (h.maxQueue.pushBack (by omega)).popFront
  · rw [hnext]
    exact (h.minQueue.pushBack (by omega)).popFront
  · have hrange : List.range' lookback (index - lookback + 1) =
        List.range' lookback (index - lookback) ++ [index] := by
      rw [List.range'_concat, Nat.one_mul, Nat.add_sub_cancel' hfrom]
    rw [hnext, hrange, List.map_append, ← h.out, List.map_singleton, reportAt, ← hspell]
    rfl

/-- **The sliding series is the plain one.** -/
theorem lookbackStateSeries_eq (candles : List Candle) (lookback : ℤ) :
    lookbackStateSeries candles lookback = plainStateSeries candles lookback := by
  rw [lookbackStateSeries, plainStateSeries]
  by_cases hpos : lookback ≤ 0
  · rw [if_pos (.inl hpos), if_pos hpos]
  · rw [if_neg hpos]
    by_cases hshort : (candles.length : ℤ) < lookback + 1
    · have hnone : candles.length - lookback.toNat = 0 := by omega
      rw [if_pos (.inr hshort), hnone]
      rfl
    · rw [if_neg (not_or.mpr ⟨hpos, hshort⟩)]
      have hrun : ∀ n, lookback.toNat + n ≤ candles.length →
          ((List.range' lookback.toNat n).foldl (ChannelState.advance candles lookback.toNat)
            (.start candles lookback.toNat)).Follows candles lookback.toNat
              (lookback.toNat + n) := by
        intro n
        induction n with
        | zero => exact fun _ => .start
        | succ n ih =>
          intro hle
          rw [List.range'_concat, Nat.one_mul, List.foldl_append]
          exact (ih (by omega)).advance (by omega) (by omega) (by omega)
      have hout := (hrun (candles.length - lookback.toNat) (by omega)).out
      rw [Nat.add_sub_cancel_left] at hout
      exact hout

/-! ## Spells -/

/-- There is a stop exactly while the position is open. -/
def Spell.Kept (s : Spell) : Prop := s.inPosition = s.stop.isSome

theorem Spell.Kept.next {s : Spell} (h : s.Kept) (priorMax priorMin close : ℚ) :
    (s.next priorMax priorMin close).Kept := by
  rw [Spell.next]
  dsimp only
  generalize (match s.stop with
    | none => (priorMax + priorMin) / 2
    | some stop => max stop ((priorMax + priorMin) / 2)) = stop
  split
  · -- Stopped out, or open with its stop.
    split
    · exact rfl
    · exact rfl
  · split
    · exact rfl
    · exact h

theorem kept_spellAfter (candles : List Candle) (lookback index : ℕ) :
    (spellAfter candles lookback index).Kept := by
  induction index with
  | zero => exact rfl
  | succ index ih =>
    rw [spellAfter]
    split
    · exact ih
    · exact ih.next _ _ _

/-- The close of a bar is above the channel before it. -/
def BreaksOut (candles : List Candle) (lookback index : ℕ) : Prop :=
  ∃ high low, priorCloseChannel candles index lookback = some (high, low) ∧
    high < closeAt candles index

/-- The close of a bar is below the stop, which is raised to the middle of the channel. -/
def StopsOut (candles : List Candle) (lookback index : ℕ) (stop : ℚ) : Prop :=
  ∃ high low, priorCloseChannel candles index lookback = some (high, low) ∧
    closeAt candles index < max stop ((high + low) / 2)

/-- What a series reports of its spells: a spell starts only on a breakout; within it the stop
never falls; and a bar that stops out is flat. -/
structure SpellsTrail (candles : List Candle) (lookback : ℕ) (series : List LookbackBar) :
    Prop where
  starts : ∀ i b, series[i]? = some b → b.inPosition = true →
    (∀ j a, i = j + 1 → series[j]? = some a → a.inPosition = false) →
      BreaksOut candles lookback (lookback + i)
  ratchets : ∀ i a b, series[i]? = some a → series[i + 1]? = some b → a.inPosition = true →
    b.inPosition = true → ∃ x y, a.stop = some x ∧ b.stop = some y ∧ x ≤ y
  staysOut : ∀ i a b x, series[i]? = some a → series[i + 1]? = some b → a.stop = some x →
    StopsOut candles lookback (lookback + (i + 1)) x → b.inPosition = false ∧ b.stop = none

/-- What one bar does to an open position. -/
theorem Spell.next_of_open {s : Spell} {x : ℚ} (h : s.Kept) (hstop : s.stop = some x)
    (priorMax priorMin close : ℚ) : s.next priorMax priorMin close =
      if close < max x ((priorMax + priorMin) / 2) then ⟨false, none⟩
      else ⟨true, some (max x ((priorMax + priorMin) / 2))⟩ := by
  have hopen : s.inPosition = true := by rw [h, hstop, Option.isSome_some]
  rw [Spell.next, if_pos hopen, hstop]

/-- A position that one bar opens. -/
theorem Spell.breaksOut_of_next {s : Spell} {priorMax priorMin close : ℚ}
    (hclosed : s.inPosition = false) (h : (s.next priorMax priorMin close).inPosition = true) :
    priorMax < close := by
  by_contra hle
  rw [Spell.next, hclosed, if_neg Bool.false_ne_true, if_neg hle, hclosed] at h
  exact Bool.false_ne_true h

theorem getElem?_plainStateSeries {i : ℕ} {b : LookbackBar} {lookback : ℤ}
    (h : (plainStateSeries candles lookback)[i]? = some b) :
    b = reportAt candles lookback.toNat (lookback.toNat + i) := by
  rw [plainStateSeries] at h
  split at h
  · cases h
  · rw [List.getElem?_map, Option.map_eq_some_iff] at h
    obtain ⟨index, hindex, rfl⟩ := h
    obtain ⟨hlt, heq⟩ := List.getElem?_eq_some_iff.mp hindex
    rw [List.getElem_range', Nat.one_mul] at heq
    rw [heq]

/-- A bar opens a position only on a breakout. -/
theorem breaksOut_of_spellAfter (hclosed : (spellAfter candles lookback index).inPosition = false)
    (h : (spellAfter candles lookback (index + 1)).inPosition = true) :
    BreaksOut candles lookback index := by
  rw [spellAfter] at h
  split at h
  · rw [hclosed] at h
    exact absurd h Bool.false_ne_true
  · rename_i high low hchannel
    exact ⟨high, low, hchannel, Spell.breaksOut_of_next hclosed h⟩

/-- While the position stays open its stop does not fall. -/
theorem ratchets_spellAfter {x : ℚ} (hstop : (spellAfter candles lookback index).stop = some x)
    (h : (spellAfter candles lookback (index + 1)).inPosition = true) :
    ∃ y, (spellAfter candles lookback (index + 1)).stop = some y ∧ x ≤ y := by
  rw [spellAfter] at h ⊢
  split at h
  · exact ⟨x, hstop, le_rfl⟩
  · rw [Spell.next_of_open (kept_spellAfter _ _ _) hstop] at h ⊢
    split at h
    · exact absurd h Bool.false_ne_true
    · rename_i hstays
      rw [if_neg hstays]
      exact ⟨_, rfl, le_max_left _ _⟩

/-- A bar that stops out is flat. -/
theorem flat_of_stopsOut {x : ℚ} (hstop : (spellAfter candles lookback index).stop = some x)
    (hout : StopsOut candles lookback index x) :
    spellAfter candles lookback (index + 1) = .flat := by
  obtain ⟨high, low, hchannel, hlt⟩ := hout
  rw [spellAfter, hchannel]
  dsimp only
  rw [Spell.next_of_open (kept_spellAfter _ _ _) hstop, if_pos hlt, Spell.flat]

/-- **The spells of the plain series.** -/
theorem spellsTrail_plainStateSeries (candles : List Candle) (lookback : ℤ) :
    SpellsTrail candles lookback.toNat (plainStateSeries candles lookback) := by
  have hkept := kept_spellAfter candles lookback.toNat
  refine ⟨fun i b hb hopen hclosed => ?_, fun i a b ha hb hopen hopen' => ?_,
    fun i a b x ha hb hx hout => ?_⟩
  · rw [getElem?_plainStateSeries hb] at hopen
    refine breaksOut_of_spellAfter ?_ hopen
    cases i with
    | zero => rw [Nat.add_zero, spellAfter_of_le le_rfl, Spell.flat]
    | succ j =>
      have hlt : j < (plainStateSeries candles lookback).length :=
        Nat.lt_of_succ_lt (List.getElem?_eq_some_iff.mp hb).1
      have ha := List.getElem?_eq_getElem hlt
      have hflat := hclosed j _ rfl ha
      rw [getElem?_plainStateSeries ha] at hflat
      exact hflat
  · rw [getElem?_plainStateSeries ha] at hopen ⊢
    rw [getElem?_plainStateSeries hb] at hopen' ⊢
    have hsome : (spellAfter candles lookback.toNat (lookback.toNat + i + 1)).stop.isSome = true :=
      (hkept _).symm.trans hopen
    obtain ⟨x, hx⟩ := Option.isSome_iff_exists.mp hsome
    obtain ⟨y, hy, hle⟩ := ratchets_spellAfter hx hopen'
    exact ⟨x, y, hx, hy, hle⟩
  · rw [getElem?_plainStateSeries ha] at hx
    have hflat := flat_of_stopsOut hx hout
    rw [getElem?_plainStateSeries hb, reportAt, ← Nat.add_assoc, hflat]
    exact ⟨rfl, rfl⟩

/-! ## Later bars -/

theorem priorCloseChannel_take {k : ℕ} (h : index ≤ k) :
    priorCloseChannel (candles.take k) index lookback =
      priorCloseChannel candles index lookback := by
  rw [priorCloseChannel, priorCloseChannel, trailing_take h]

theorem spellAfter_take {k : ℕ} (h : index ≤ k) :
    spellAfter (candles.take k) lookback index = spellAfter candles lookback index := by
  induction index with
  | zero => rfl
  | succ index ih =>
    rw [spellAfter, spellAfter, priorCloseChannel_take (by omega), ih (by omega),
      closeAt_take (by omega)]

theorem reportAt_take {k : ℕ} (h : index < k) :
    reportAt (candles.take k) lookback index = reportAt candles lookback index := by
  rw [reportAt, reportAt, spellAfter_take h, momentAt_take h]

/-- **The series of the first bars is the first part of the series.** -/
theorem lookbackStateSeries_prefix (candles : List Candle) (lookback : ℤ) (k : ℕ) :
    lookbackStateSeries (candles.take k) lookback <+: lookbackStateSeries candles lookback := by
  rw [lookbackStateSeries_eq, lookbackStateSeries_eq, plainStateSeries, plainStateSeries]
  by_cases hpos : lookback ≤ 0
  · rw [if_pos hpos, if_pos hpos]
  · rw [if_neg hpos, if_neg hpos]
    have hreports : (List.range' lookback.toNat ((candles.take k).length - lookback.toNat)).map
        (reportAt (candles.take k) lookback.toNat) =
        (List.range' lookback.toNat ((candles.take k).length - lookback.toNat)).map
          (reportAt candles lookback.toNat) := by
      refine List.map_congr_left fun index hindex => reportAt_take ?_
      have hlt := List.mem_range'_1.mp hindex
      rw [List.length_take] at hlt
      omega
    rw [hreports]
    refine List.IsPrefix.map _ (prefix_range' ?_)
    rw [List.length_take]
    omega

end

end TraderStack
