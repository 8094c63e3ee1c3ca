import TraderStack.Lib.Trailing
import TraderStack.Research.Backtest

/-!
# Readings of a candle series (indicators.py)

What a strategy reads off its candles by their places: a close, a moment, a channel, a deviation.
What is read up to a place does not depend on the candles after it.
-/

namespace TraderStack

open Lib

/-- `candles[index].close`. -/
def closeAt (candles : List Candle) (index : ℕ) : ℚ := (candles[index]?.map Candle.close).getD 0

/-- `candles[index].opened_at`. -/
def momentAt (candles : List Candle) (index : ℕ) : Time :=
  (candles[index]?.map Candle.openedAt).getD 0

/-- `standard_deviation` (indicators.py:18–23): of the sample. -/
def standardDeviation (sqrt : ℚ → ℚ) (values : List ℚ) : ℚ :=
  if values.length < 2 then 0
  else
    let avg := values.sum / values.length
    sqrt ((values.map fun value => (value - avg) ^ 2).sum / (values.length - 1 : ℕ))

/-- `zscore` (indicators.py:55–59). -/
def zscore (sqrt : ℚ → ℚ) (value : ℚ) (population : List ℚ) : ℚ :=
  let deviation := standardDeviation sqrt population
  if deviation = 0 then 0 else (value - population.sum / population.length) / deviation

/-- `simple_return` from each price to the next (indicators.py:6–9). -/
def simpleReturns (prices : List ℚ) : List ℚ :=
  List.zipWith (fun start end_ => end_ / start - 1) prices prices.tail

section

variable {candles : List Candle} {index k : ℕ}

theorem closeAt_take (h : index < k) : closeAt (candles.take k) index = closeAt candles index := by
  rw [closeAt, closeAt, List.getElem?_take_of_lt h]

theorem momentAt_take (h : index < k) :
    momentAt (candles.take k) index = momentAt candles index := by
  rw [momentAt, momentAt, List.getElem?_take_of_lt h]

theorem momentAt_eq (h : index < candles.length) :
    momentAt candles index = candles[index].openedAt := by
  rw [momentAt, List.getElem?_eq_getElem h]
  rfl

theorem closeAt_concat {candle : Candle} (h : index < candles.length) :
    closeAt (candles ++ [candle]) index = closeAt candles index := by
  rw [closeAt, closeAt, List.getElem?_append_left h]

theorem momentAt_concat {candle : Candle} (h : index < candles.length) :
    momentAt (candles ++ [candle]) index = momentAt candles index := by
  rw [momentAt, momentAt, List.getElem?_append_left h]

theorem momentAt_last (candles : List Candle) (candle : Candle) :
    momentAt (candles ++ [candle]) candles.length = candle.openedAt := by
  rw [momentAt, List.getElem?_concat_length]
  rfl

/-- Where the moments ascend, different bars have different ones. -/
theorem momentAt_inj (hsorted : candles.Pairwise fun a b => a.openedAt < b.openedAt) {i j : ℕ}
    (hi : i < candles.length) (hj : j < candles.length)
    (h : momentAt candles i = momentAt candles j) : i = j := by
  rw [momentAt_eq hi, momentAt_eq hj] at h
  have hordered := List.pairwise_iff_getElem.mp hsorted
  rcases Nat.lt_trichotomy i j with hlt | heq | hgt
  · exact absurd h (hordered i j hi hj hlt).ne
  · exact heq
  · exact absurd h (hordered j i hj hi hgt).ne'

end

end TraderStack
