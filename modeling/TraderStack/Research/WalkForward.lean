import TraderStack.Research.Backtest

/-!
# Walk-forward reports and holdouts (walkforward.py, research/search.py)

What the two searches share: how a series is split into its research window and its
holdout, where the folds of a walk-forward start, what a report says of its folds,
and what `except ValueError` catches.
-/

namespace TraderStack

open Lib

/-! ## Exceptions -/

namespace ResearchError

/-- Is it a `ValueError`? Pydantic's is one; a division by zero is none. -/
def isValueError : ResearchError → Bool
  | .zeroDivision => false
  | .fatal _ => false
  | _ => true

/-- `str(exc)`. Pydantic's text goes on with the field and its value. -/
def message : ResearchError → String
  | .insufficientCandles => "insufficient candles for backtest"
  | .unsupportedInterval interval => "unsupported candle interval '" ++ interval ++ "'"
  | .validation model => "validation error for " ++ model
  | .zeroDivision => "float division by zero"
  | .decision message => message
  | .fatal name => name
  | .holdoutFraction => "holdout_fraction must be in (0, 1)"
  | .emptySplit => "holdout split leaves an empty research or holdout window"
  | .trainSize => "train_size must be positive"
  | .testSize => "test_size must be positive"
  | .trainWithinWarmup => "train_size must exceed backtester warmup"
  | .testWithinWarmup => "test_size must exceed backtester warmup"
  | .stepSize => "step_size must be positive"
  | .noFold => "insufficient candles for one walk-forward fold"
  | .noHistories => "no candle histories provided"

end ResearchError

variable {α β : Type}

/-- `try … except ValueError`: what was caught is a result, anything else is raised
on. -/
def catchValueError (r : Except ResearchError α) :
    Except ResearchError (Except ResearchError α) :=
  match r with
  | .ok a => .ok (.ok a)
  | .error e => if e.isValueError then .ok (.error e) else .error e

/-- `[f(x) for x in xs]`, where `f` may raise. -/
def collect (f : α → Except ResearchError β) : List α → Except ResearchError (List β)
  | [] => .ok []
  | x :: xs =>
    match f x with
    | .error e => .error e
    | .ok y =>
      match collect f xs with
      | .error e => .error e
      | .ok ys => .ok (y :: ys)

/-- `_mean` of the searches (search.py:189–192): of no values, none. -/
def meanOption (values : List ℚ) : Option ℚ :=
  if values = [] then none else some (values.sum / values.length)

/-! ## The holdout -/

/-- `DEFAULT_HOLDOUT_FRACTION`. -/
def defaultHoldoutFraction : ℚ := 20 / 100

/-- `int(len(candles) * holdout_fraction)`. -/
def holdoutSize (length : ℕ) (holdoutFraction : ℚ) : ℕ := ⌊length * holdoutFraction⌋.toNat

/-- `split_holdout` (search.py:149–160; miles_search.py:62–73), as it is called: with no
minimum for the holdout. -/
def splitHoldout (candles : List Candle) (holdoutFraction : ℚ) :
    Except ResearchError (List Candle × List Candle) :=
  if ¬(0 < holdoutFraction ∧ holdoutFraction < 1) then .error .holdoutFraction
  else
    let size := holdoutSize candles.length holdoutFraction
    if size = 0 ∨ candles.length ≤ size then .error .emptySplit
    else
      .ok (candles.take (candles.length - size), candles.drop (candles.length - size))

/-! ## Folds -/

/-- `WalkForwardFold` (walkforward.py:15–20). -/
structure WalkForwardFold where
  trainStart : ℕ
  trainEnd : ℕ
  testStart : ℕ
  testEnd : ℕ
  metrics : BacktestMetrics
  trainEnd_pos : 0 < trainEnd
  testEnd_pos : 0 < testEnd
deriving DecidableEq

/-- `WalkForwardReport` (walkforward.py:23–28), without the mean Sharpe. -/
structure WalkForwardReport where
  folds : List WalkForwardFold
  meanTotalReturn : ℚ
  meanExcessReturn : ℚ
  worstDrawdown : ℚ
deriving DecidableEq

/-- Where the folds start: every `stepSize` bars, while a fold still fits. -/
def foldStarts (trainSize testSize stepSize length : ℕ) : List ℕ :=
  ((List.range (length + 1)).map (· * stepSize)).filter fun start =>
    start + trainSize + testSize ≤ length

/-- The fold that starts at a bar; it is refused where its training window is empty. -/
def foldAt (trainSize testSize start : ℕ) (metrics : BacktestMetrics) :
    Except ResearchError WalkForwardFold :=
  if h : 0 < start + trainSize then
    .ok
      { trainStart := start
        trainEnd := start + trainSize
        testStart := start + trainSize
        testEnd := start + trainSize + testSize
        metrics := metrics
        trainEnd_pos := h
        testEnd_pos := Nat.add_pos_left h testSize }
  else .error (.validation "WalkForwardFold")

/-- The report on some folds (walkforward.py:92–101). -/
def reportFolds : List WalkForwardFold → Except ResearchError WalkForwardReport
  | [] => .error .noFold
  | first :: rest =>
    let metrics := (first :: rest).map WalkForwardFold.metrics
    .ok
      { folds := first :: rest
        meanTotalReturn := (metrics.map BacktestMetrics.totalReturn).sum / metrics.length
        meanExcessReturn := (metrics.map BacktestMetrics.excessReturn).sum / metrics.length
        worstDrawdown :=
          (rest.map fun f => f.metrics.maxDrawdown).foldl max first.metrics.maxDrawdown }

/-- The folds of a walk-forward over so many bars, each backtested from its start, and
the report on them. -/
def walkForward (trainSize testSize stepSize length : ℕ)
    (backtest : ℕ → Except ResearchError BacktestMetrics) :
    Except ResearchError WalkForwardReport :=
  match collect (fun start => (backtest start).bind (foldAt trainSize testSize start))
      (foldStarts trainSize testSize stepSize length) with
  | .error e => .error e
  | .ok folds => reportFolds folds

/-- The trades of all folds. -/
def WalkForwardReport.trades (r : WalkForwardReport) : ℕ :=
  (r.folds.map fun f => f.metrics.trades).sum

/-- Without the trade log. -/
def BacktestMetrics.stripped (m : BacktestMetrics) : BacktestMetrics := { m with tradeLog := [] }

/-- Without the trade logs of the folds. -/
def WalkForwardReport.stripped (r : WalkForwardReport) : WalkForwardReport :=
  { r with folds := r.folds.map fun f => { f with metrics := f.metrics.stripped } }

/-! ## What is collected -/

/-- What is collected, where every element gives something. -/
theorem collect_eq_map {f : α → Except ResearchError β} {g : α → β} (xs : List α)
    (h : ∀ x ∈ xs, f x = .ok (g x)) : collect f xs = .ok (xs.map g) := by
  induction xs with
  | nil => rfl
  | cons x xs ih =>
    rw [collect, h x List.mem_cons_self, ih fun x' hx' => h x' (List.mem_cons_of_mem x hx'),
      List.map_cons]

/-- Every element of a list that is collected gives something. -/
theorem forall_of_collect {f : α → Except ResearchError β} {xs : List α} {ys : List β}
    (h : collect f xs = .ok ys) : ∀ x ∈ xs, ∃ y, f x = .ok y := by
  induction xs generalizing ys with
  | nil => exact nofun
  | cons x xs ih =>
    rw [collect] at h
    split at h
    · cases h
    · rename_i y hy
      split at h
      · cases h
      · rename_i ys' hys
        intro x' hx'
        rcases List.mem_cons.mp hx' with rfl | hmem
        · exact ⟨y, hy⟩
        · exact ih hys x' hmem

/-- Both raise the same, or both return, and what they return relates. -/
inductive Alike {γ : Type} (R : β → γ → Prop) :
    Except ResearchError β → Except ResearchError γ → Prop
  | raised (e : ResearchError) : Alike R (.error e) (.error e)
  | returned {y : β} {z : γ} (h : R y z) : Alike R (.ok y) (.ok z)

section

variable {γ δ ε : Type} {R : β → γ → Prop} {r : Except ResearchError β}
  {r' : Except ResearchError γ}

theorem Alike.map {S : δ → ε → Prop} {f : β → δ} {g : γ → ε} (h : Alike R r r')
    (hfg : ∀ y z, R y z → S (f y) (g z)) : Alike S (r.map f) (r'.map g) := by
  cases h with
  | raised e => exact .raised e
  | returned h => exact .returned (hfg _ _ h)

/-- What one catches, the other does. -/
theorem Alike.catchValueError (h : Alike R r r') :
    Alike (Alike R) (catchValueError r) (catchValueError r') := by
  cases h with
  | raised e =>
    show Alike _ (if e.isValueError then _ else _) (if e.isValueError then _ else _)
    by_cases he : e.isValueError = true
    · rw [if_pos he, if_pos he]
      exact .returned (.raised e)
    · rw [if_neg he, if_neg he]
      exact .raised e
  | returned h => exact .returned (.returned h)

/-- What was caught, as an option. -/
theorem Alike.toOption (h : Alike R r r') : Option.Rel R r.toOption r'.toOption := by
  cases h with
  | raised e => exact .none
  | returned h => exact .some h

theorem Alike.collect {f : α → Except ResearchError β} {g : α → Except ResearchError γ}
    (xs : List α) (h : ∀ x ∈ xs, Alike R (f x) (g x)) :
    Alike (List.Forall₂ R) (collect f xs) (collect g xs) := by
  induction xs with
  | nil => exact .returned .nil
  | cons x xs ih =>
    have hx := h x List.mem_cons_self
    have hxs := ih fun x' hx' => h x' (List.mem_cons_of_mem x hx')
    rw [TraderStack.collect, TraderStack.collect]
    generalize f x = fx at hx
    generalize g x = gx at hx
    generalize TraderStack.collect f xs = fs at hxs
    generalize TraderStack.collect g xs = gs at hxs
    cases hx with
    | raised e => exact .raised e
    | returned hyz =>
      cases hxs with
      | raised e => exact .raised e
      | returned hrel => exact .returned (.cons hyz hrel)

end

end TraderStack
