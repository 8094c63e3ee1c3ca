import TraderStack.Models

/-!
# Walk-forward volatility forecasts (garch.py)

`walkforward_forecasts` rolls a conditional variance along a series of returns, and fits
the parameters anew every few bars, on the returns before the bar. The fit is whatever
function of those returns `fit_garch11` is; the square root is the library's. Both are
parameters.

- `rollFrom_take`: a shorter series gives the first forecasts of the longer one;
- `Rolled.forecastAt`: between two fits the roll stays at the variance that the batch
  recursion gives for all returns so far;
- `walkforward_no_lookahead`: both, and agreement with the one-step forecast at a fit.
-/

namespace TraderStack

/-- `GarchParams` (garch.py:42–47). -/
structure GarchParams where
  omega : ℚ
  alpha : ℚ
  beta : ℚ
  variance : ℚ
deriving DecidableEq

/-- What `_regime` calls a forecast. -/
inductive VolRegime where
  | unknown
  | calm
  | normal
  | storm
deriving DecidableEq, Repr

/-- `GarchForecast` (garch.py:50–60). -/
structure GarchForecast where
  variance : ℚ
  vol : ℚ
  volAnn : ℚ
  sizeMultiplier : ℚ
  regime : VolRegime
  volPercentile : Option ℚ
deriving DecidableEq

/-- What the forecasts raise. -/
inductive GarchError where
  | minTrain
  | refitEvery
  | periods
  | sizeCaps
deriving DecidableEq, Repr

/-- The keyword arguments of the forecasts. -/
structure GarchArgs where
  periods : ℚ
  minTrain : ℕ
  refitEvery : ℕ
  targetVolAnn : ℚ
  minSize : ℚ
  maxSize : ℚ
  regimeLookback : ℤ

/-- `_VAR_FLOOR`. -/
def varFloor : ℚ := 1 / 10 ^ 12

/-- `size_from_vol` (garch.py:87–100). -/
def sizeFromVol (args : GarchArgs) (forecastVolAnn : ℚ) : Except GarchError ℚ :=
  if args.minSize ≤ 0 ∨ args.maxSize < args.minSize then .error .sizeCaps
  else if forecastVolAnn ≤ 0 ∨ args.targetVolAnn ≤ 0 then .ok args.minSize
  else .ok (min (max (args.targetVolAnn / forecastVolAnn) args.minSize) args.maxSize)

/-- `_regime` (garch.py:178–185). -/
def volRegime (percentile : Option ℚ) : VolRegime :=
  match percentile with
  | none => .unknown
  | some p => if p < 1 / 3 then .calm else if p < 2 / 3 then .normal else .storm

/-! ## The recursion -/

/-- One step of the recursion, at the floor or above it. -/
def GarchParams.roll (params : GarchParams) (sigma2 residual : ℚ) : ℚ :=
  max (params.omega + params.alpha * residual * residual + params.beta * sigma2) varFloor

/-- `_conditional_variance` (garch.py:170–175). -/
def conditionalVariance (params : GarchParams) (returns : List ℚ) : ℚ :=
  returns.foldl params.roll (max params.variance varFloor)

theorem conditionalVariance_append (params : GarchParams) (returns : List ℚ) (residual : ℚ) :
    conditionalVariance params (returns ++ [residual])
      = params.roll (conditionalVariance params returns) residual := by
  unfold conditionalVariance
  rw [List.foldl_append]
  rfl

/-! ## The walk -/

/-- The last `lookback` values: `values[-lookback:]`. -/
def lastValues (values : List ℚ) (lookback : ℤ) : List ℚ :=
  if 0 < lookback then values.drop (values.length - lookback.toNat)
  else values.drop (-lookback).toNat

/-- The share of the values that are below one, if there are any (garch.py:226–230). -/
def volPercentile (lookback : List ℚ) (vol : ℚ) : Option ℚ :=
  if lookback = [] then none
  else some ((lookback.countP fun value => value < vol) / lookback.length)

/-- The variables of the loop. -/
structure RollState where
  params : Option GarchParams
  sigma2 : ℚ
  priorVols : List ℚ

/-- Before the first bar. -/
def RollState.start : RollState := ⟨none, 0, []⟩

section

variable (fit : List ℚ → GarchParams) (sqrt : ℚ → ℚ) (args : GarchArgs)

/-- The parameters and the variance a bar starts from (garch.py:219–221): fitted on what was
seen before it where a fit is due, and the last ones otherwise. -/
def refit (s : RollState) (seen : List ℚ) : GarchParams × ℚ :=
  match s.params with
  | none => (fit seen, conditionalVariance (fit seen) seen)
  | some params =>
    if (seen.length - args.minTrain) % args.refitEvery = 0 then
      (fit seen, conditionalVariance (fit seen) seen)
    else (params, s.sigma2)

/-- One bar (garch.py:218–241): what was seen before it, and its return. -/
def forecastAt (s : RollState) (seen : List ℚ) (residual : ℚ) :
    Except GarchError (GarchForecast × RollState) :=
  let (params, sigma2) := refit fit args s seen
  let sigma2 := params.roll sigma2 residual
  let vol := sqrt sigma2
  let volAnn := vol * sqrt args.periods
  let percentile := volPercentile (lastValues s.priorVols args.regimeLookback) vol
  match sizeFromVol args volAnn with
  | .error e => .error e
  | .ok size =>
    .ok (⟨sigma2, vol, volAnn, size, volRegime percentile, percentile⟩,
      ⟨some params, sigma2, s.priorVols ++ [vol]⟩)

/-- The bars after those seen. -/
def rollFrom : RollState → List ℚ → List ℚ → Except GarchError (List GarchForecast)
  | _, _, [] => .ok []
  | s, seen, residual :: rest =>
    match forecastAt fit sqrt args s seen residual with
    | .error e => .error e
    | .ok (forecast, s') =>
      match rollFrom s' (seen ++ [residual]) rest with
      | .error e => .error e
      | .ok forecasts => .ok (forecast :: forecasts)

/-- `walkforward_forecasts` (garch.py:188–242). -/
def walkforwardForecasts (returns : List ℚ) : Except GarchError (List (Option GarchForecast)) :=
  if args.minTrain < 20 then .error .minTrain
  else if args.refitEvery = 0 then .error .refitEvery
  else if args.periods ≤ 0 then .error .periods
  else if returns.length ≤ args.minTrain then .ok (List.replicate returns.length none)
  else
    match rollFrom fit sqrt args .start (returns.take args.minTrain)
        (returns.drop args.minTrain) with
    | .error e => .error e
    | .ok forecasts => .ok (List.replicate args.minTrain none ++ forecasts.map some)

/-- `one_step_forecast` (garch.py:245–275). -/
def oneStepForecast (returns : List ℚ) : Except GarchError (Option GarchForecast) :=
  if returns.length < args.minTrain + 1 then .ok none
  else
    let params := fit returns.dropLast
    let sigma2 := params.roll (conditionalVariance params returns.dropLast)
      (returns.getLast?.getD 0)
    let vol := sqrt sigma2
    let volAnn := vol * sqrt args.periods
    match sizeFromVol args volAnn with
    | .error e => .error e
    | .ok size => .ok (some ⟨sigma2, vol, volAnn, size, .unknown, none⟩)

end

/-! ## No look-ahead -/

variable {fit : List ℚ → GarchParams} {sqrt : ℚ → ℚ} {args : GarchArgs}

/-- What a roll returned: a forecast for the next bar, and a roll of the rest. -/
theorem rollFrom_cons {s : RollState} {seen rest : List ℚ} {residual : ℚ}
    {forecasts : List GarchForecast}
    (h : rollFrom fit sqrt args s seen (residual :: rest) = .ok forecasts) :
    ∃ forecast s' later, forecastAt fit sqrt args s seen residual = .ok (forecast, s') ∧
      rollFrom fit sqrt args s' (seen ++ [residual]) rest = .ok later ∧
      forecasts = forecast :: later := by
  unfold rollFrom at h
  split at h
  · cases h
  rename_i forecast s' hforecast
  split at h
  · cases h
  rename_i later hlater
  exact ⟨forecast, s', later, hforecast, hlater, (Except.ok.inj h).symm⟩

theorem rollFrom_length {s : RollState} {seen rest : List ℚ} {forecasts : List GarchForecast}
    (h : rollFrom fit sqrt args s seen rest = .ok forecasts) :
    forecasts.length = rest.length := by
  induction rest generalizing s seen forecasts with
  | nil => cases h; rfl
  | cons residual rest ih =>
    obtain ⟨forecast, s', later, -, hlater, rfl⟩ := rollFrom_cons h
    rw [List.length_cons, List.length_cons, ih hlater]

/-- **A shorter series gives the first forecasts of the longer one.** -/
theorem rollFrom_take {s : RollState} {seen rest : List ℚ} {forecasts : List GarchForecast}
    (h : rollFrom fit sqrt args s seen rest = .ok forecasts) (k : ℕ) :
    rollFrom fit sqrt args s seen (rest.take k) = .ok (forecasts.take k) := by
  induction rest generalizing s seen forecasts k with
  | nil =>
    cases h
    simp [rollFrom]
  | cons residual rest ih =>
    obtain ⟨forecast, s', later, hforecast, hlater, rfl⟩ := rollFrom_cons h
    cases k with
    | zero => simp [rollFrom]
    | succ k =>
      rw [List.take_succ_cons, List.take_succ_cons]
      unfold rollFrom
      rw [hforecast]
      dsimp only
      rw [ih hlater k]

/-- What a walk that returned was given, and what it consists of. -/
theorem walkforward_ok {returns : List ℚ} {out : List (Option GarchForecast)}
    (h : walkforwardForecasts fit sqrt args returns = .ok out) :
    20 ≤ args.minTrain ∧ 0 < args.refitEvery ∧ 0 < args.periods ∧
      ((returns.length ≤ args.minTrain ∧ out = List.replicate returns.length none) ∨
        args.minTrain < returns.length ∧ ∃ forecasts,
          rollFrom fit sqrt args .start (returns.take args.minTrain)
            (returns.drop args.minTrain) = .ok forecasts ∧
          out = List.replicate args.minTrain none ++ forecasts.map some) := by
  unfold walkforwardForecasts at h
  split at h
  · cases h
  split at h
  · cases h
  split at h
  · cases h
  refine ⟨not_lt.mp ‹_›, Nat.pos_of_ne_zero ‹_›, not_le.mp ‹_›, ?_⟩
  split at h
  · exact .inl ⟨‹_›, (Except.ok.inj h).symm⟩
  rename_i hlong
  split at h
  · cases h
  rename_i forecasts hroll
  exact .inr ⟨not_le.mp hlong, forecasts, hroll, (Except.ok.inj h).symm⟩

/-- **The walk of a prefix is a prefix of the walk.** -/
theorem walkforward_take {returns : List ℚ} {out : List (Option GarchForecast)}
    (h : walkforwardForecasts fit sqrt args returns = .ok out) (k : ℕ) :
    walkforwardForecasts fit sqrt args (returns.take k) = .ok (out.take k) := by
  obtain ⟨htrain, hrefit, hperiods, hout⟩ := walkforward_ok h
  unfold walkforwardForecasts
  rw [if_neg (not_lt.mpr htrain), if_neg hrefit.ne', if_neg (not_le.mpr hperiods)]
  rcases hout with ⟨hshort, rfl⟩ | ⟨hlong, forecasts, hroll, rfl⟩
  · rw [if_pos (by rw [List.length_take]; omega), List.length_take, List.take_replicate]
  · by_cases hk : k ≤ args.minTrain
    · rw [if_pos (by rw [List.length_take]; omega), List.length_take,
        List.take_append_of_le_length (by rwa [List.length_replicate]), List.take_replicate,
        Nat.min_eq_left (hk.trans hlong.le), Nat.min_eq_left hk]
    · -- Past the training bars the walks start alike, and one stops sooner.
      have hmin : args.minTrain ≤ k := (not_le.mp hk).le
      rw [if_neg (by rw [List.length_take]; omega), List.take_take, Nat.min_eq_left hmin,
        List.drop_take, rollFrom_take hroll]
      dsimp only
      rw [List.take_append, List.length_replicate, List.take_replicate, Nat.min_eq_right hmin,
        List.map_take]

/-! ## Between two fits -/

/-- A bar at which a fit is due. -/
def RefitIndex (args : GarchArgs) (j : ℕ) : Prop :=
  args.minTrain ≤ j ∧ (j - args.minTrain) % args.refitEvery = 0

/-- The last bar up to another at which a fit is due. -/
def LastRefit (args : GarchArgs) (i j : ℕ) : Prop :=
  IsGreatest {j | RefitIndex args j ∧ j ≤ i} j

theorem LastRefit.unique {i j k : ℕ} (h : LastRefit args i j) (h' : LastRefit args i k) : j = k :=
  IsGreatest.unique h h'

theorem LastRefit.of_due {i : ℕ} (h : RefitIndex args i) : LastRefit args i i :=
  ⟨⟨h, le_refl i⟩, fun _ hj => hj.2⟩

theorem LastRefit.succ {i j : ℕ} (h : LastRefit args i j) (hnot : ¬RefitIndex args (i + 1)) :
    LastRefit args (i + 1) j := by
  refine ⟨⟨h.1.1, h.1.2.trans (Nat.le_succ i)⟩, fun k hk => ?_⟩
  rcases Nat.le_succ_iff.mp hk.2 with hle | rfl
  · exact h.2 ⟨hk.1, hle⟩
  · exact absurd hk.1 hnot

/-- Where the roll stands before a bar: nothing is fitted yet at the first one, and after it
the variance is the batch recursion's, at the parameters of the last fit. -/
structure Rolled (fit : List ℚ → GarchParams) (args : GarchArgs) (s : RollState)
    (seen : List ℚ) : Prop where
  fresh : s.params = none → seen.length = args.minTrain
  fitted : ∀ params, s.params = some params → ∃ i j, seen.length = i + 1 ∧ args.minTrain ≤ i ∧
    LastRefit args i j ∧ params = fit (seen.take j) ∧ s.sigma2 = conditionalVariance params seen

/-- What a bar that returned did. -/
theorem forecastAt_ok {s s' : RollState} {seen : List ℚ} {residual : ℚ} {f : GarchForecast}
    (h : forecastAt fit sqrt args s seen residual = .ok (f, s')) :
    f.variance = (refit fit args s seen).1.roll (refit fit args s seen).2 residual ∧
      s'.params = some (refit fit args s seen).1 ∧ s'.sigma2 = f.variance ∧
      ∃ size, sizeFromVol args (sqrt f.variance * sqrt args.periods) = .ok size := by
  unfold forecastAt at h
  dsimp only at h
  split at h
  · cases h
  · rename_i size hsize
    obtain ⟨rfl, rfl⟩ := Prod.mk.inj (Except.ok.inj h)
    exact ⟨rfl, rfl, rfl, size, hsize⟩

/-- What a bar starts from is the batch recursion at the parameters of the last fit. -/
theorem Rolled.refit {s : RollState} {seen : List ℚ} (h : Rolled fit args s seen) :
    args.minTrain ≤ seen.length ∧ ∃ j, LastRefit args seen.length j ∧
      refit fit args s seen
        = (fit (seen.take j), conditionalVariance (fit (seen.take j)) seen) := by
  have hdue : RefitIndex args seen.length → ∃ j, LastRefit args seen.length j ∧
      (fit seen, conditionalVariance (fit seen) seen)
        = (fit (seen.take j), conditionalVariance (fit (seen.take j)) seen) := fun hat =>
    ⟨seen.length, .of_due hat, by rw [List.take_length]⟩
  unfold TraderStack.refit
  cases hparams : s.params with
  | none =>
    have hlen := h.fresh hparams
    exact ⟨hlen.ge, hdue ⟨hlen.ge, by simp [hlen]⟩⟩
  | some params =>
    obtain ⟨i, j, hlen, hmin, hlast, rfl, hsigma⟩ := h.fitted params hparams
    have hmin' : args.minTrain ≤ seen.length := by omega
    refine ⟨hmin', ?_⟩
    dsimp only
    split
    · exact hdue ⟨hmin', ‹_›⟩
    · rename_i hnot
      refine ⟨j, ?_, by rw [hsigma]⟩
      rw [hlen] at hnot ⊢
      exact hlast.succ fun hat => hnot hat.2

/-- **One bar.** Its variance is the batch recursion's over all returns so far, at the
parameters of the last fit. -/
theorem Rolled.forecastAt {s s' : RollState} {seen : List ℚ} {residual : ℚ} {f : GarchForecast}
    (h : Rolled fit args s seen) (hok : forecastAt fit sqrt args s seen residual = .ok (f, s')) :
    Rolled fit args s' (seen ++ [residual]) ∧ ∃ j, LastRefit args seen.length j ∧
      f.variance = conditionalVariance (fit (seen.take j)) (seen ++ [residual]) := by
  obtain ⟨hmin, j, hlast, hrefit⟩ := h.refit
  obtain ⟨hvariance, hparams, hsigma, -⟩ := forecastAt_ok hok
  rw [hrefit] at hvariance hparams
  rw [← conditionalVariance_append] at hvariance
  have htake : (seen ++ [residual]).take j = seen.take j :=
    List.take_append_of_le_length hlast.1.2
  refine ⟨⟨fun hnone => ?_, fun params hsome => ?_⟩, j, hlast, hvariance⟩
  · rw [hparams] at hnone
    cases hnone
  · rw [hparams] at hsome
    obtain rfl := Option.some.inj hsome
    refine ⟨seen.length, j, List.length_append, hmin, hlast, by rw [htake], ?_⟩
    rw [hsigma, hvariance]

/-- **All bars.** -/
theorem Rolled.rollFrom {s : RollState} {seen rest : List ℚ} {forecasts : List GarchForecast}
    (h : Rolled fit args s seen) (hok : rollFrom fit sqrt args s seen rest = .ok forecasts)
    {i : ℕ} (hseen : seen.length ≤ i) {f : GarchForecast}
    (hf : forecasts[i - seen.length]? = some f) :
    (∃ j, LastRefit args i j ∧ f.variance = conditionalVariance (fit ((seen ++ rest).take j))
      ((seen ++ rest).take (i + 1))) ∧
      ∃ size, sizeFromVol args (sqrt f.variance * sqrt args.periods) = .ok size := by
  induction rest generalizing s seen forecasts with
  | nil =>
    cases hok
    simp at hf
  | cons residual rest ih =>
    obtain ⟨forecast, s', later, hforecast, hlater, rfl⟩ := rollFrom_cons hok
    obtain ⟨hrolled, j, hlast, hvariance⟩ := h.forecastAt hforecast
    have hsplit : seen ++ residual :: rest = (seen ++ [residual]) ++ rest := by simp
    by_cases hnow : i = seen.length
    · rw [hnow, Nat.sub_self] at hf
      obtain rfl := Option.some.inj hf
      refine ⟨⟨j, hnow ▸ hlast, ?_⟩, (forecastAt_ok hforecast).2.2.2⟩
      have hj : j ≤ seen.length := hlast.1.2
      have htake : ((seen ++ [residual]) ++ rest).take (seen.length + 1) = seen ++ [residual] :=
        List.take_left' List.length_append
      rw [hvariance, List.take_append_of_le_length hj, hsplit, hnow, htake]
    · rw [hsplit]
      refine ih hrolled hlater ?_ ?_
      · rw [List.length_append, List.length_singleton]
        omega
      · have hindex : i - seen.length = i - (seen ++ [residual]).length + 1 := by
          rw [List.length_append, List.length_singleton]
          omega
        rwa [hindex, List.getElem?_cons_succ] at hf

theorem Rolled.start {returns : List ℚ} (h : args.minTrain < returns.length) :
    Rolled fit args .start (returns.take args.minTrain) where
  fresh _ := by
    rw [List.length_take]
    exact Nat.min_eq_left h.le
  fitted _ hsome := nomatch hsome

/-- At a fit the one-step forecast is the same recursion on the same returns. -/
theorem oneStep_of_fit {returns : List ℚ} {i : ℕ} (hmin : args.minTrain ≤ i)
    (hi : i < returns.length) {size : ℚ}
    (hsize : sizeFromVol args (sqrt (conditionalVariance (fit (returns.take i))
      (returns.take (i + 1))) * sqrt args.periods) = .ok size) :
    ∃ g, oneStepForecast fit sqrt args (returns.take (i + 1)) = .ok (some g) ∧
      g.variance = conditionalVariance (fit (returns.take i)) (returns.take (i + 1)) := by
  have hsplit : returns.take (i + 1) = returns.take i ++ [returns.get ⟨i, hi⟩] :=
    List.take_succ_eq_append_getElem hi
  rw [hsplit, conditionalVariance_append] at hsize
  unfold oneStepForecast
  rw [if_neg (by rw [List.length_take]; omega), hsplit, List.dropLast_concat,
    List.getLast?_concat, conditionalVariance_append]
  dsimp only [Option.getD_some]
  rw [hsize]
  exact ⟨_, rfl, rfl⟩

/-- **No look-ahead, and the one-step model.** The walk of any first part of the returns
is the first part of the walk. At each bar past the training ones the variance is the
batch recursion's over all returns so far, at the parameters fitted on the returns before
the last bar at which a fit was due; and where a fit is due it is the one-step
forecast's. -/
theorem walkforward_no_lookahead (fit : List ℚ → GarchParams) (sqrt : ℚ → ℚ) (args : GarchArgs)
    (returns : List ℚ) (out : List (Option GarchForecast))
    (h : walkforwardForecasts fit sqrt args returns = .ok out) :
    (∀ k, walkforwardForecasts fit sqrt args (returns.take k) = .ok (out.take k)) ∧
      ∀ i, args.minTrain ≤ i → i < returns.length →
        ∃ f, out[i]? = some (some f) ∧
          (∃ j, LastRefit args i j ∧
            f.variance = conditionalVariance (fit (returns.take j)) (returns.take (i + 1))) ∧
          (RefitIndex args i →
            ∃ g, oneStepForecast fit sqrt args (returns.take (i + 1)) = .ok (some g) ∧
              g.variance = f.variance) := by
  refine ⟨walkforward_take h, fun i hmin hi => ?_⟩
  obtain ⟨-, -, -, ⟨hshort, -⟩ | ⟨hlong, forecasts, hroll, rfl⟩⟩ := walkforward_ok h
  · omega
  have hseen : (returns.take args.minTrain).length = args.minTrain := by
    rw [List.length_take]
    exact Nat.min_eq_left hlong.le
  have hindex : i - args.minTrain < forecasts.length := by
    rw [rollFrom_length hroll, List.length_drop]
    omega
  have hf : forecasts[i - args.minTrain]? = some (forecasts.get ⟨_, hindex⟩) :=
    List.getElem?_eq_getElem hindex
  obtain ⟨⟨j, hlast, hvariance⟩, size, hsize⟩ := (Rolled.start hlong).rollFrom hroll
    (hseen.trans_le hmin) (by rw [hseen]; exact hf)
  rw [List.take_append_drop] at hvariance
  refine ⟨_, ?_, ⟨j, hlast, hvariance⟩, fun hdue => ?_⟩
  · rw [List.getElem?_append_right (by rwa [List.length_replicate]), List.length_replicate,
      List.getElem?_map, hf]
    rfl
  · obtain rfl := hlast.unique (.of_due hdue)
    rw [hvariance] at hsize
    obtain ⟨g, hg, hgv⟩ := oneStep_of_fit hmin hi hsize
    exact ⟨g, hg, hgv.trans hvariance.symm⟩

namespace Calm

/-- A fit without memory, at a variance of a hundredth squared. -/
def fitted : List ℚ → GarchParams := fun _ => ⟨1 / 10000, 0, 0, 1 / 10000⟩

/-- The square root, at the values that come up. -/
def root : ℚ → ℚ := fun x => if x = 1 / 10000 then 1 / 100 else 1

def settings : GarchArgs where
  periods := 1
  minTrain := 20
  refitEvery := 2
  targetVolAnn := 1 / 2
  minSize := 1 / 4
  maxSize := 2
  regimeLookback := 365

def forecast (percentile : Option ℚ) : GarchForecast :=
  ⟨1 / 10000, 1 / 100, 1 / 100, 2, volRegime percentile, percentile⟩

end Calm

/-- Twenty-three flat returns: twenty to train on, and a second fit at the last. -/
theorem walkforward_no_lookahead_calm :
    ∃ g, oneStepForecast Calm.fitted Calm.root Calm.settings (List.replicate 23 0) = .ok (some g) ∧
      g.variance = 1 / 10000 := by
  have hwalk : walkforwardForecasts Calm.fitted Calm.root Calm.settings (List.replicate 23 0)
      = .ok (List.replicate 20 none
        ++ [some (Calm.forecast none), some (Calm.forecast (some 0)),
          some (Calm.forecast (some 0))]) := by
    decide +kernel
  obtain ⟨f, hf, -, hone⟩ := (walkforward_no_lookahead _ _ _ _ _ hwalk).2 22 (by decide) (by decide)
  obtain ⟨g, hg, hgv⟩ := hone ⟨by decide, rfl⟩
  refine ⟨g, hg, hgv.trans ?_⟩
  rw [← Option.some.inj (Option.some.inj hf)]
  rfl

end TraderStack
