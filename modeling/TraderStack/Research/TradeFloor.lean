import TraderStack.Lib.Bisect
import TraderStack.Models

/-!
# The bootstrap trade floor (research/overfitting.py)

`bootstrap_trade_floor` looks for the smallest resample size whose interval excludes
zero: it doubles a size seeded by a closed form, then halves. The test is a parameter, and
so are the square root and the numeric part of the normal quantile.

The doubling gives up once it is past the cap, without a look at the sizes between its
last probe and the cap.

- `bootstrapTradeFloor_eq`: what is reported, in terms of the search;
- `tradeFloor_least_iff`: the least size is found exactly when the last probe passes, or
  nothing up to the cap does.
-/

namespace TraderStack

open Lib

namespace Overfitting

/-- `ValueError` of `normal_ppf`. -/
inductive StatsError where
  | probability
deriving DecidableEq, Repr

/-! ## Moments -/

/-- `mean` (overfitting.py:190–193). -/
def mean (sample : List ℚ) : Option ℚ :=
  if sample = [] then none else some (sample.sum / sample.length)

/-- The largest size of a value, or 1 where all are zero. -/
def scale (sample : List ℚ) : ℚ :=
  let largest := (sample.map fun value => |value|).foldl max 0
  if largest = 0 then 1 else largest

/-- `stdev` (overfitting.py:196–218). -/
def stdev (sqrt : ℚ → ℚ) (population : Bool) (sample : List ℚ) : Option ℚ :=
  if sample.length < 2 then none
  else
    let average := sample.sum / sample.length
    let divisor : ℚ := if population then sample.length else sample.length - 1
    let variance := (sample.map fun value => (value - average) ^ 2).sum / divisor
    if variance ≤ 0 then none
    else
      let deviation := sqrt variance
      if deviation < 1 / 10 ^ 12 * scale sample then none else some deviation

/-- `sharpe_ratio` (overfitting.py:252–260). -/
def sharpeRatio (sqrt : ℚ → ℚ) (sample : List ℚ) : Option ℚ :=
  if sample.length < 2 then none
  else
    match stdev sqrt false sample, mean sample with
    | some deviation, some average => some (average / deviation)
    | _, _ => none

/-- `normal_ppf` (overfitting.py:157–182): the estimate is the library's. -/
def normalPpf (estimate : ℚ → ℚ) (probability : ℚ) : Except StatsError ℚ :=
  if 0 < probability ∧ probability < 1 then .ok (estimate probability) else .error .probability

end Overfitting

/-! ## The floor -/

open Overfitting

/-- `MAX_TRADE_FLOOR`. -/
def maxTradeFloor : ℕ := 4096

/-- What a floor is skipped for. -/
inductive FloorSkip where
  | fewerThanTwoObservations
  | sampleHasNoDispersion
  | requiredObservationsExceedsCap
deriving DecidableEq, Repr

/-- The keyword arguments of `bootstrap_trade_floor`. -/
structure FloorArgs where
  observedTrades : ℤ
  configuredMinTrades : ℤ
  observationUnit : String
  tradesPerObservation : ℚ
  confidence : ℚ
  iterations : ℕ
  seed : ℤ

/-- `TradeCountFloor` (overfitting.py:631–662). -/
structure TradeCountFloor where
  computed : Bool
  skippedReason : Option FloorSkip
  confidence : ℚ
  seed : ℤ
  iterations : ℕ
  observationUnit : String
  tradesPerObservation : ℚ
  observedObservations : ℕ
  observedTrades : ℤ
  requiredObservations : Option ℕ
  requiredTrades : Option ℤ
  analyticRequiredObservations : Option ℕ
  configuredMinTrades : ℤ
  effectiveMinTrades : ℤ
  meetsFloor : Bool
deriving DecidableEq

section

variable (sqrt estimate : ℚ → ℚ)

/-- `analytic_observation_floor` (overfitting.py:665–678). -/
def analyticObservationFloor (sample : List ℚ) (confidence : ℚ) :
    Except StatsError (Option ℕ) :=
  match mean sample, stdev sqrt false sample with
  | some average, some deviation =>
    if average = 0 then .ok none
    else
      match normalPpf estimate (1 - (1 - confidence) / 2) with
      | .error e => .error e
      | .ok z => .ok (some (max 2 ⌈(z * deviation / |average|) ^ 2⌉).toNat)
  | _, _ => .ok none

/-- Where the doubling starts (overfitting.py:741). -/
def floorSeed (analytic : Option ℕ) : ℕ := analytic.elim 2 fun n => max 2 (n / 4)

/-- `skipped` (overfitting.py:711–725). -/
def FloorArgs.skipped (args : FloorArgs) (sample : List ℚ) (reason : FloorSkip)
    (analytic : Option ℕ) : TradeCountFloor where
  computed := false
  skippedReason := some reason
  confidence := args.confidence
  seed := args.seed
  iterations := args.iterations
  observationUnit := args.observationUnit
  tradesPerObservation := args.tradesPerObservation
  observedObservations := sample.length
  observedTrades := args.observedTrades
  requiredObservations := none
  requiredTrades := none
  analyticRequiredObservations := analytic
  configuredMinTrades := args.configuredMinTrades
  effectiveMinTrades := args.configuredMinTrades
  meetsFloor := args.configuredMinTrades ≤ args.observedTrades

/-- What a search that found a size reports (overfitting.py:755–779). -/
def FloorArgs.found (args : FloorArgs) (sample : List ℚ) (required : ℕ) (analytic : Option ℕ) :
    TradeCountFloor :=
  let scale := if 0 < args.tradesPerObservation then args.tradesPerObservation else 1
  let requiredTrades := max 2 ⌈required * scale⌉
  let effective := max args.configuredMinTrades requiredTrades
  { computed := true
    skippedReason := none
    confidence := args.confidence
    seed := args.seed
    iterations := args.iterations
    observationUnit := args.observationUnit
    tradesPerObservation := args.tradesPerObservation
    observedObservations := sample.length
    observedTrades := args.observedTrades
    requiredObservations := some required
    requiredTrades := some requiredTrades
    analyticRequiredObservations := analytic
    configuredMinTrades := args.configuredMinTrades
    effectiveMinTrades := effective
    meetsFloor := effective ≤ args.observedTrades }

/-- The search (overfitting.py:741–755), with the test `excludes_zero_at`: the size it
finds, unless the doubling passes the cap. -/
def floorSearch (excludesZeroAt : ℕ → Bool) (seed : ℕ) : Option ℕ :=
  let upper := double excludesZeroAt maxTradeFloor seed
  if maxTradeFloor < upper then none
  else
    let low := if seed = upper then 1 else seed
    some (max 2 (bisect excludesZeroAt low upper))

/-- `bootstrap_trade_floor` (overfitting.py:681–779). -/
def bootstrapTradeFloor (excludesZeroAt : ℕ → Bool) (sample : List ℚ) (args : FloorArgs) :
    Except StatsError TradeCountFloor :=
  if sample.length < 2 then .ok (args.skipped sample .fewerThanTwoObservations none)
  else if mean sample = some 0 ∨ stdev sqrt false sample = none then
    .ok (args.skipped sample .sampleHasNoDispersion none)
  else
    match analyticObservationFloor sqrt estimate sample args.confidence with
    | .error e => .error e
    | .ok analytic =>
      match floorSearch excludesZeroAt (floorSeed analytic) with
      | none => .ok (args.skipped sample .requiredObservationsExceedsCap analytic)
      | some required => .ok (args.found sample required analytic)

end

/-! ## What the search finds -/

variable {p : ℕ → Bool} {seed : ℕ}

/-- The sizes the floor is the least of. -/
def PassingSizes (p : ℕ → Bool) : Set ℕ := {n | 2 ≤ n ∧ n ≤ maxTradeFloor ∧ p n = true}

/-- One of the probes up to the cap passes, or nothing up to the cap does. -/
def ReachesCap (p : ℕ → Bool) (seed : ℕ) : Prop :=
  (∃ k, seed * 2 ^ k ≤ maxTradeFloor ∧ p (seed * 2 ^ k) = true) ∨
    ∀ n, n ∉ PassingSizes p

theorem two_le_floorSeed (analytic : Option ℕ) : 2 ≤ floorSeed analytic := by
  cases analytic with
  | none => exact le_refl 2
  | some n => exact le_max_left 2 (n / 4)

/-- **A size that is found is the least that passes.** Every case of the search starts its
halving where nothing below passes. -/
theorem floorSearch_some (hp : MonotoneFrom 2 p) (hseed : 2 ≤ seed) {n : ℕ}
    (h : floorSearch p seed = some n) : IsLeast (PassingSizes p) n := by
  unfold floorSearch at h
  dsimp only at h
  split at h
  · cases h
  rename_i hcap
  obtain ⟨k, hupper, hbefore, hend⟩ := exists_doubling p maxTradeFloor (by omega : 0 < seed)
  have hpass : p (double p maxTradeFloor seed) = true := hend.resolve_left hcap
  have hn := Option.some.inj h
  have hleast : ∃ low, 0 < low ∧ low < double p maxTradeFloor seed ∧
      (∀ m, 2 ≤ m → m ≤ low → p m = false) ∧
      (if seed = double p maxTradeFloor seed then 1 else seed) = low := by
    by_cases heq : seed = double p maxTradeFloor seed
    · refine ⟨1, one_pos, by omega, fun m hm hle => by omega, if_pos heq⟩
    · -- The seed was probed first, and failed.
      have hk : 0 < k := Nat.pos_of_ne_zero fun hk => heq (by rw [hupper, hk]; simp)
      have hfail : p seed = false := by simpa using (hbefore 0 hk).2
      have htwo : 2 ≤ 2 ^ k := Nat.le_self_pow hk.ne' 2
      refine ⟨seed, by omega, ?_, fun m hm hle => hp.false_of_le hm hle hfail, if_neg heq⟩
      rw [hupper]
      nlinarith
  obtain ⟨low, hpos, hlt, hbelow, hlow⟩ := hleast
  rw [hlow] at hn
  obtain ⟨⟨hgt, hfound⟩, hmin⟩ := bisect_isLeast hp hpos hlt hpass
  have htwo : max 2 (bisect p low (double p maxTradeFloor seed))
      = bisect p low (double p maxTradeFloor seed) := max_eq_right (by omega)
  rw [htwo] at hn
  subst hn
  refine ⟨⟨by omega, (hmin ⟨hlt, hpass⟩).trans (not_lt.mp hcap), hfound⟩, fun m hm => ?_⟩
  by_cases hle : m ≤ low
  · have hfail := hbelow m hm.1 hle
    rw [hm.2.2] at hfail
    cases hfail
  · exact hmin ⟨not_le.mp hle, hm.2.2⟩

/-- The search gives up exactly when all probes up to the cap fail. -/
theorem floorSearch_none_iff (hseed : 2 ≤ seed) :
    floorSearch p seed = none ↔
      ∀ k, seed * 2 ^ k ≤ maxTradeFloor → p (seed * 2 ^ k) = false := by
  obtain ⟨k, hupper, hbefore, hend⟩ := exists_doubling p maxTradeFloor (by omega : 0 < seed)
  unfold floorSearch
  dsimp only
  constructor
  · intro h
    split at h
    · rename_i hcap
      intro i hi
      -- A probe up to the cap comes before the one that passes it.
      have hlt : i < k := by
        by_contra hge
        have hmono : 2 ^ k ≤ 2 ^ i := Nat.pow_le_pow_right two_pos (not_lt.mp hge)
        have hmul : seed * 2 ^ k ≤ seed * 2 ^ i := Nat.mul_le_mul_left seed hmono
        omega
      exact (hbefore i hlt).2
    · cases h
  · intro h
    rw [if_pos]
    rcases hend with hcap | hpass
    · exact hcap
    · by_contra hle
      rw [hupper] at hle hpass
      have hfail := h k (not_lt.mp hle)
      rw [hpass] at hfail
      cases hfail

/-! ## The floor is the least size -/

/-- A sample is searched unless it is too short or has no dispersion. -/
def Searched (sqrt : ℚ → ℚ) (sample : List ℚ) : Prop :=
  2 ≤ sample.length ∧ mean sample ≠ some 0 ∧ stdev sqrt false sample ≠ none

/-- The size the doubling of a sample starts from. -/
def sampleSeed (sqrt estimate : ℚ → ℚ) (sample : List ℚ) (confidence : ℚ) : ℕ :=
  match analyticObservationFloor sqrt estimate sample confidence with
  | .ok analytic => floorSeed analytic
  | .error _ => 2

/-- A report finds the least size that passes, gives up only where there is none, and
never lowers the floor. -/
structure FindsLeast (p : ℕ → Bool) (searched : Prop) (r : TradeCountFloor) : Prop where
  found : searched → ∀ n, IsLeast (PassingSizes p) n → r.requiredObservations = some n
  least : ∀ n, r.requiredObservations = some n → IsLeast (PassingSizes p) n
  cap : r.skippedReason = some .requiredObservationsExceedsCap → ∀ n, n ∉ PassingSizes p
  floor : r.configuredMinTrades ≤ r.effectiveMinTrades

variable {sqrt estimate : ℚ → ℚ} {sample : List ℚ} {args : FloorArgs} {r : TradeCountFloor}

/-- What is reported, in terms of the search. -/
theorem bootstrapTradeFloor_eq
    (h : bootstrapTradeFloor sqrt estimate p sample args = .ok r) :
    (¬Searched sqrt sample ∧ ∃ reason, r = args.skipped sample reason none ∧
        reason ≠ .requiredObservationsExceedsCap) ∨
      Searched sqrt sample ∧ ∃ analytic,
        analyticObservationFloor sqrt estimate sample args.confidence = .ok analytic ∧
        r = (floorSearch p (floorSeed analytic)).elim
          (args.skipped sample .requiredObservationsExceedsCap analytic)
          fun required => args.found sample required analytic := by
  unfold bootstrapTradeFloor at h
  split at h
  · rename_i hshort
    refine .inl ⟨fun hsearched => not_le.mpr hshort hsearched.1, _, (Except.ok.inj h).symm, ?_⟩
    exact FloorSkip.noConfusion
  rename_i hlong
  split at h
  · rename_i hflat
    refine .inl ⟨fun hsearched => hflat.elim hsearched.2.1 hsearched.2.2, _,
      (Except.ok.inj h).symm, ?_⟩
    exact FloorSkip.noConfusion
  rename_i hdispersed
  obtain ⟨hmean, hstdev⟩ := not_or.mp hdispersed
  refine .inr ⟨⟨not_lt.mp hlong, hmean, hstdev⟩, ?_⟩
  split at h
  · cases h
  rename_i analytic hanalytic
  refine ⟨analytic, hanalytic, ?_⟩
  split at h
  · rename_i hsearch
    rw [hsearch]
    exact (Except.ok.inj h).symm
  · rename_i required hsearch
    rw [hsearch]
    exact (Except.ok.inj h).symm

theorem analytic_ok (sqrt estimate : ℚ → ℚ) (sample : List ℚ) (hlow : -1 < args.confidence)
    (hhigh : args.confidence < 1) :
    ∃ analytic, analyticObservationFloor sqrt estimate sample args.confidence = .ok analytic := by
  unfold analyticObservationFloor
  split
  · split
    · exact ⟨none, rfl⟩
    · unfold normalPpf
      rw [if_pos ⟨by linarith, by linarith⟩]
      exact ⟨_, rfl⟩
  · exact ⟨none, rfl⟩

/-- A floor is reported at every confidence that the quantile takes. -/
theorem bootstrapTradeFloor_ok (sqrt estimate : ℚ → ℚ) (p : ℕ → Bool) (sample : List ℚ)
    (hlow : -1 < args.confidence) (hhigh : args.confidence < 1) :
    ∃ r, bootstrapTradeFloor sqrt estimate p sample args = .ok r := by
  obtain ⟨analytic, hanalytic⟩ := analytic_ok sqrt estimate sample hlow hhigh
  unfold bootstrapTradeFloor
  split
  · exact ⟨_, rfl⟩
  split
  · exact ⟨_, rfl⟩
  rw [hanalytic]
  dsimp only
  split
  · exact ⟨_, rfl⟩
  · exact ⟨_, rfl⟩

/-- **The search finds the least size exactly when its last probe passes**, or nothing up
to the cap does. -/
theorem floorSearch_finds_iff (hp : MonotoneFrom 2 p) (sample : List ℚ) (args : FloorArgs)
    (analytic : Option ℕ) :
    FindsLeast p True ((floorSearch p (floorSeed analytic)).elim
        (args.skipped sample .requiredObservationsExceedsCap analytic)
        fun required => args.found sample required analytic) ↔
      ReachesCap p (floorSeed analytic) := by
  have hseed := two_le_floorSeed analytic
  constructor
  · intro h
    cases hsearch : floorSearch p (floorSeed analytic) with
    | none =>
      rw [hsearch] at h
      exact .inr (h.cap rfl)
    | some n =>
      refine .inl ?_
      by_contra hnone
      have hgives := (floorSearch_none_iff hseed).mpr fun k hk =>
        Bool.eq_false_iff.mpr fun hpass => hnone ⟨k, hk, hpass⟩
      rw [hsearch] at hgives
      cases hgives
  · intro h
    cases hsearch : floorSearch p (floorSeed analytic) with
    | none =>
      have hnothing : ∀ n, n ∉ PassingSizes p := by
        rcases h with ⟨k, hk, hpass⟩ | hnothing
        · have hfail := (floorSearch_none_iff hseed).mp hsearch k hk
          rw [hpass] at hfail
          cases hfail
        · exact hnothing
      refine ⟨fun _ n hn => absurd hn.1 (hnothing n), fun n hn => ?_, fun _ => hnothing, le_refl _⟩
      cases hn
    | some required =>
      have hleast := floorSearch_some hp hseed hsearch
      refine ⟨fun _ n hn => congrArg some (hleast.unique hn), fun n hn => ?_, fun hcap => ?_, ?_⟩
      · exact Option.some.inj hn ▸ hleast
      · cases hcap
      · exact le_max_left _ _

namespace Overshot

/-- The square root of the sample's variance. -/
def root : ℚ → ℚ := fun x => if x = 81 / 25 then 9 / 5 else 1

/-- The normal quantile at 0.975. -/
def quantile : ℚ → ℚ := fun _ => 1959963984540054 / 10 ^ 15

/-- Expectancies with a mean of 1 and a deviation of 1.8. -/
def expectancies : List ℚ := [-4 / 5, 1, 14 / 5]

def settings : FloorArgs where
  observedTrades := 30
  configuredMinTrades := 3
  observationUnit := "trade"
  tradesPerObservation := 1
  confidence := 19 / 20
  iterations := 400
  seed := 135

/-- The interval excludes zero from 4000 observations on. -/
def test (size : ℕ) : Bool := decide (4000 ≤ size)

theorem test_monotone : MonotoneFrom 2 test := fun _ _ _ hle hm =>
  decide_eq_true ((of_decide_eq_true hm).trans hle)

theorem analytic : analyticObservationFloor root quantile expectancies settings.confidence
    = .ok (some 13) := by decide +kernel

/-- The doubling goes 3, 6, …, 3072, 6144. -/
theorem search : floorSearch test 3 = none := by
  rw [floorSearch_none_iff (by decide)]
  intro k hk
  by_cases hsmall : k ≤ 10
  · have hmono : 2 ^ k ≤ 2 ^ 10 := Nat.pow_le_pow_right two_pos hsmall
    exact decide_eq_false (by omega)
  · have hmono : 2 ^ 11 ≤ 2 ^ k := Nat.pow_le_pow_right two_pos (by omega)
    unfold maxTradeFloor at hk
    omega

theorem searched : Searched root expectancies := by
  refine ⟨by decide, ?_, ?_⟩
  · decide +kernel
  · decide +kernel

end Overshot

/-- Four thousand observations suffice, and the cap is 4096; but the doubling from 3 goes
from 3072 to 6144, and the floor is reported to exceed the cap. -/
theorem overshot_floor_exceeds_cap :
    ∃ r, bootstrapTradeFloor Overshot.root Overshot.quantile Overshot.test Overshot.expectancies
        Overshot.settings = .ok r ∧
      r.skippedReason = some .requiredObservationsExceedsCap ∧
      4000 ∈ PassingSizes Overshot.test ∧
      ¬FindsLeast Overshot.test (Searched Overshot.root Overshot.expectancies) r := by
  have hpasses : 4000 ∈ PassingSizes Overshot.test := ⟨by decide, by decide, rfl⟩
  obtain ⟨r, hr⟩ := bootstrapTradeFloor_ok Overshot.root Overshot.quantile Overshot.test
    Overshot.expectancies (by decide +kernel : -1 < Overshot.settings.confidence)
    (by decide +kernel)
  rcases bootstrapTradeFloor_eq hr with ⟨hnot, -⟩ | ⟨-, analytic, hanalytic, heq⟩
  · exact absurd Overshot.searched hnot
  obtain rfl := Except.ok.inj (Overshot.analytic.symm.trans hanalytic)
  have hsearch : floorSearch Overshot.test (floorSeed (some 13)) = none := Overshot.search
  rw [hsearch] at heq
  have hskipped : r.skippedReason = some .requiredObservationsExceedsCap := by rw [heq]; rfl
  exact ⟨r, hr, hskipped, hpasses, fun hbad => hbad.cap hskipped 4000 hpasses⟩

/-- **The trade floor.** At every confidence the quantile takes a floor is reported; and for
a test that is monotone in the size, whatever is reported is right exactly when, if the
sample is searched, a probe up to the cap passes or nothing up to the cap does. -/
theorem tradeFloor_least_iff (sqrt estimate : ℚ → ℚ) (excludesZeroAt : ℕ → Bool)
    (hmono : MonotoneFrom 2 excludesZeroAt) (sample : List ℚ) (args : FloorArgs) :
    (-1 < args.confidence → args.confidence < 1 →
        ∃ r, bootstrapTradeFloor sqrt estimate excludesZeroAt sample args = .ok r) ∧
      ∀ r, bootstrapTradeFloor sqrt estimate excludesZeroAt sample args = .ok r →
        (FindsLeast excludesZeroAt (Searched sqrt sample) r ↔
          (Searched sqrt sample →
            ReachesCap excludesZeroAt (sampleSeed sqrt estimate sample args.confidence))) := by
  refine ⟨bootstrapTradeFloor_ok sqrt estimate excludesZeroAt sample, fun r hr => ?_⟩
  rcases bootstrapTradeFloor_eq hr with ⟨hnot, reason, rfl, hreason⟩ | ⟨hsearched, analytic,
    hanalytic, rfl⟩
  · refine ⟨fun _ hsearched => absurd hsearched hnot, fun _ => ?_⟩
    refine ⟨fun hsearched => absurd hsearched hnot, fun n hn => ?_, fun hcap => ?_, le_refl _⟩
    · cases hn
    · exact absurd (Option.some.inj hcap) hreason
  · have hseed : sampleSeed sqrt estimate sample args.confidence = floorSeed analytic := by
      unfold sampleSeed
      rw [hanalytic]
    have hfinds := floorSearch_finds_iff hmono sample args analytic
    rw [hseed, eq_true hsearched, true_imp_iff]
    exact hfinds

/-- With a test that passes from 3000 on the probe at 3072 passes, and 3000 is reported. -/
theorem tradeFloor_least_overshot :
    ∃ r, bootstrapTradeFloor Overshot.root Overshot.quantile (fun n => decide (3000 ≤ n))
        Overshot.expectancies Overshot.settings = .ok r ∧ r.requiredObservations = some 3000 := by
  have hmono : MonotoneFrom 2 fun n => decide (3000 ≤ n) := fun _ _ _ hle hm =>
    decide_eq_true ((of_decide_eq_true hm).trans hle)
  obtain ⟨hreported, hiff⟩ := tradeFloor_least_iff Overshot.root Overshot.quantile _ hmono
    Overshot.expectancies Overshot.settings
  obtain ⟨r, hr⟩ := hreported (by decide +kernel) (by decide +kernel)
  have hseed : sampleSeed Overshot.root Overshot.quantile Overshot.expectancies
      Overshot.settings.confidence = 3 := by
    unfold sampleSeed
    rw [Overshot.analytic]
    rfl
  have hfinds := (hiff r hr).mpr fun _ => .inl ⟨10, by rw [hseed]; decide, by rw [hseed]; rfl⟩
  refine ⟨r, hr, hfinds.found Overshot.searched 3000 ⟨⟨by decide, by decide, rfl⟩, fun n hn => ?_⟩⟩
  exact of_decide_eq_true hn.2.2

end TraderStack
