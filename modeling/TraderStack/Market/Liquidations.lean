import TraderStack.Models
import TraderStack.Lib.Machine
import TraderStack.Lib.Text

/-!
# Liquidation windows (market/liquidations.py)

The aggregator adds up the notionals of liquidations per asset and side in aligned windows.
The window in progress is the current bucket; closed windows are the entries of the baseline
that the z-score is taken over. A newer event closes the current bucket, and so does a
snapshot that finds it aged out.

- `held_run`: no notional is lost or counted twice in a window that is still retained;
- `oneTotalPerWindow_iff`: **the baseline has one total per window** exactly when no bucket is
  closed that a late event had re-opened;
- `no_closesReopened_of_fresh`: that is so when no event comes for a window that is closed.
-/

namespace TraderStack

open Lib Lib.Text

/-! ## Events and windows -/

/-- `LiquidationSide` (market/models.py:113–121). -/
inductive LiquidationSide where
  | long
  | short
deriving DecidableEq

/-- `LiquidationEvent` (market/models.py:124–132), as far as the aggregator reads it. -/
structure LiquidationEvent where
  asset : String
  observedAt : Time
  side : LiquidationSide
  notional : ℚ
  notional_pos : 0 < notional

/-- The settings of a `LiquidationAggregator` (lines 213–215). -/
structure LiquidationSettings where
  windowSeconds : ℚ
  baselineSeconds : ℚ
  countCap : ℤ

/-- `_align` (lines 201–205): the start of the window a moment falls into. -/
def align (moment : Time) (window : ℚ) : Time :=
  let seconds := if truncate window = 0 then 1 else truncate window
  let epoch := truncate moment
  (epoch - epoch.fmod seconds : ℤ)

/-- Later moments do not fall into earlier windows. -/
theorem align_mono {window : ℚ} (hwindow : 0 < window) {t t' : Time} (h : t ≤ t') :
    align t window ≤ align t' window := by
  have hseconds : 0 < if truncate window = 0 then 1 else truncate window := by
    split
    · exact one_pos
    · rename_i hne
      exact lt_of_le_of_ne (truncate_nonneg hwindow.le) (Ne.symm hne)
  simp only [align]
  generalize (if truncate window = 0 then 1 else truncate window) = seconds at hseconds ⊢
  have hmul : ∀ epoch : ℤ, epoch - epoch.fmod seconds = seconds * (epoch / seconds) := by
    intro epoch
    have hsplit := Int.mul_fdiv_add_fmod epoch seconds
    rw [Int.fdiv_eq_ediv_of_nonneg _ hseconds.le] at hsplit
    omega
  rw [hmul, hmul]
  have hdiv := Int.ediv_le_ediv hseconds (truncate_mono h)
  exact_mod_cast mul_le_mul_of_nonneg_left hdiv hseconds.le

/-! ## One side -/

/-- `_SideBuckets` (lines 171–198): closed windows and the current one. An idle side has added
nothing up; a current bucket has. -/
structure SideBuckets where
  buckets : List (Time × ℚ)
  currentStart : Option Time
  currentSum : ℚ
  currentCount : ℕ
  idle : currentStart = none → currentSum = 0
  live : currentStart ≠ none → 0 < currentSum

namespace SideBuckets

/-- A side that has seen nothing. -/
def empty : SideBuckets where
  buckets := []
  currentStart := none
  currentSum := 0
  currentCount := 0
  idle _ := rfl
  live h := absurd rfl h

theorem currentSum_nonneg (b : SideBuckets) : 0 ≤ b.currentSum := by
  by_cases h : b.currentStart = none
  · exact (b.idle h).ge
  · exact (b.live h).le

theorem idle_of_some {s : Time} {x : ℚ} : some s = none → x = 0 := nofun

theorem live_of_none {x : ℚ} : (none : Option Time) ≠ none → 0 < x := fun h => absurd rfl h

theorem live_of_add {c : Option Time} (b : SideBuckets) {notional : ℚ} (h : 0 < notional) :
    c ≠ none → 0 < b.currentSum + notional :=
  fun _ => add_pos_of_nonneg_of_pos b.currentSum_nonneg h

theorem live_of_start {c : Option Time} {notional : ℚ} (h : 0 < notional) :
    c ≠ none → 0 < 0 + notional :=
  fun _ => by rwa [zero_add]

/-- `add` (lines 180–190). -/
def add (b : SideBuckets) (observedAt : Time) (notional window : ℚ) (h : 0 < notional) :
    SideBuckets :=
  let start := align observedAt window
  match b.currentStart with
  | none =>
    { buckets := b.buckets
      currentStart := some start
      currentSum := b.currentSum + notional
      currentCount := b.currentCount + 1
      idle := idle_of_some
      live := b.live_of_add h }
  | some current =>
    if start ≠ current then
      { buckets := b.buckets ++ [(current, b.currentSum)]
        currentStart := some start
        currentSum := 0 + notional
        currentCount := 0 + 1
        idle := idle_of_some
        live := live_of_start h }
    else
      { buckets := b.buckets
        currentStart := some current
        currentSum := b.currentSum + notional
        currentCount := b.currentCount + 1
        idle := idle_of_some
        live := b.live_of_add h }

/-- Entries without those at the front that are before the cutoff. -/
def pruned (cutoff : Time) (entries : List (Time × ℚ)) : List (Time × ℚ) :=
  entries.dropWhile fun e => e.1 < cutoff

/-- `prune` (lines 192–194). -/
def prune (b : SideBuckets) (cutoff : Time) : SideBuckets :=
  { b with buckets := pruned cutoff b.buckets }

/-- `LiquidationAggregator._current` (lines 256–269): the sum and count of the live window, and
the side afterwards. -/
def current (cfg : LiquidationSettings) (b : SideBuckets) (now : Time) : (ℚ × ℕ) × SideBuckets :=
  match b.currentStart with
  | none => ((0, 0), b)
  | some start =>
    if now - start ≥ cfg.windowSeconds then
      let closed := if b.currentSum > 0
        then pruned (now - cfg.baselineSeconds) (b.buckets ++ [(start, b.currentSum)])
        else b.buckets
      ((0, 0),
        { buckets := closed
          currentStart := none
          currentSum := 0
          currentCount := 0
          idle := fun _ => rfl
          live := live_of_none })
    else ((b.currentSum, b.currentCount), b)

end SideBuckets

/-! ## The z-score -/

/-- `_clip_z` (lines 155–156). -/
def clipZ (value : ℚ) : ℚ := max (-5) (min 5 value)

/-- `_zscore` (lines 159–168); `sqrt` is the square root. -/
def zscoreOf (sqrt : ℚ → ℚ) (current : ℚ) (history : List ℚ) : Option ℚ :=
  if history.length < 2 then none
  else
    let mean := history.sum / (history.length : ℚ)
    let variance := (history.map fun item => (item - mean) ^ 2).sum / ((history.length : ℚ) - 1)
    let std := sqrt variance
    if std = 0 then some 0 else some (clipZ ((current - mean) / std))

/-- `_SideBuckets.zscore` (lines 196–197). -/
def SideBuckets.zscore (sqrt : ℚ → ℚ) (b : SideBuckets) : Option ℚ :=
  zscoreOf sqrt b.currentSum (b.buckets.map (·.2))

theorem clipZ_mem (value : ℚ) : -5 ≤ clipZ value ∧ clipZ value ≤ 5 :=
  ⟨le_max_left _ _, max_le (by norm_num) (min_le_left _ _)⟩

/-- A z-score is within its bounds. -/
theorem zscoreOf_mem {sqrt : ℚ → ℚ} {current : ℚ} {history : List ℚ} :
    ∀ z ∈ zscoreOf sqrt current history, -5 ≤ z ∧ z ≤ 5 := by
  intro z hz
  simp only [zscoreOf] at hz
  split_ifs at hz
  · cases hz
  · cases hz
    norm_num
  · cases hz
    exact clipZ_mem _

/-! ## The aggregator -/

/-- `LiquidationWindowSnapshot` (market/models.py:135–146), with its validators as fields. -/
structure LiquidationWindowSnapshot where
  asset : String
  observedAt : Time
  sourceId : String
  liqNotionalLongZ : Option ℚ
  liqNotionalShortZ : Option ℚ
  liqCountLong : ℚ
  liqCountShort : ℚ
  longNotional : ℚ
  shortNotional : ℚ
  longZ_mem : ∀ z ∈ liqNotionalLongZ, -5 ≤ z ∧ z ≤ 5
  shortZ_mem : ∀ z ∈ liqNotionalShortZ, -5 ≤ z ∧ z ≤ 5
  countLong_mem : 0 ≤ liqCountLong ∧ liqCountLong ≤ 1
  countShort_mem : 0 ≤ liqCountShort ∧ liqCountShort ≤ 1
  longNotional_nonneg : 0 ≤ longNotional
  shortNotional_nonneg : 0 ≤ shortNotional

/-- `LiquidationAggregator` (lines 208–222). -/
structure LiquidationAggregator where
  sides : Dict String (Dict LiquidationSide SideBuckets)
  lastEventAt : Dict String Time

namespace LiquidationAggregator

/-- An aggregator that has seen nothing. -/
def empty : LiquidationAggregator := { sides := Dict.empty, lastEventAt := Dict.empty }

/-- The buckets of an asset's side, fresh ones where there are none. -/
def sideOf (g : LiquidationAggregator) (key : String) (side : LiquidationSide) : SideBuckets :=
  (((g.sides.get? key).getD Dict.empty).get? side).getD SideBuckets.empty

/-- `ingest` (lines 228–233). -/
def ingest (cfg : LiquidationSettings) (g : LiquidationAggregator) (event : LiquidationEvent) :
    LiquidationAggregator :=
  let key := upper event.asset
  let buckets := (g.sideOf key event.side).add event.observedAt event.notional cfg.windowSeconds
    event.notional_pos
  let buckets := buckets.prune (event.observedAt - cfg.baselineSeconds)
  { sides := g.sides.set key (((g.sides.get? key).getD Dict.empty).set event.side buckets)
    lastEventAt := g.lastEventAt.set key event.observedAt }

/-- The aggregator after `snapshot` (lines 235–254): the sides that an asset has are each read,
which may close their buckets. -/
def afterSnapshot (cfg : LiquidationSettings) (g : LiquidationAggregator) (asset : String)
    (now : Time) : LiquidationAggregator :=
  match g.sides.get? (upper asset) with
  | none => g
  | some sides =>
    { g with
      sides := g.sides.set (upper asset) (sides.map fun _ b => (b.current cfg now).2) }

/-- The z-score a snapshot reports of a side it has read. -/
def reportedZ (sqrt : ℚ → ℚ) (live : ℚ) (b : SideBuckets) : Option ℚ :=
  if live ≠ 0 ∨ b.buckets ≠ [] then b.zscore sqrt else none

theorem reportedZ_mem {sqrt : ℚ → ℚ} {live : ℚ} {b : SideBuckets} :
    ∀ z ∈ reportedZ sqrt live b, -5 ≤ z ∧ z ≤ 5 := by
  intro z hz
  rw [reportedZ] at hz
  split_ifs at hz
  · exact zscoreOf_mem z hz
  · cases hz

/-- A count as a share of its cap. -/
def share (cap : ℤ) (count : ℕ) : ℚ := (min (count : ℤ) (max 1 cap) : ℤ) / (max 1 cap : ℤ)

theorem share_mem (cap : ℤ) (count : ℕ) : 0 ≤ share cap count ∧ share cap count ≤ 1 := by
  have hcap : (0 : ℚ) < (max 1 cap : ℤ) := by
    exact_mod_cast lt_of_lt_of_le one_pos (le_max_left 1 cap)
  have hmin : (0 : ℚ) ≤ (min (count : ℤ) (max 1 cap) : ℤ) := by
    exact_mod_cast le_min (Int.natCast_nonneg _) (le_trans zero_le_one (le_max_left 1 cap))
  refine ⟨div_nonneg hmin hcap.le, ?_⟩
  rw [share, div_le_one hcap]
  exact_mod_cast min_le_right _ _

theorem live_nonneg (cfg : LiquidationSettings) (b : SideBuckets) (now : Time) :
    0 ≤ (b.current cfg now).1.1 := by
  rw [SideBuckets.current]
  split
  · exact le_rfl
  · split
    · exact le_rfl
    · exact b.currentSum_nonneg

/-- `snapshot` (lines 235–254): what it returns. -/
def snapshot (sqrt : ℚ → ℚ) (cfg : LiquidationSettings) (g : LiquidationAggregator)
    (asset : String) (now : Time) : LiquidationWindowSnapshot :=
  let key := upper asset
  let long := (g.sideOf key .long).current cfg now
  let short := (g.sideOf key .short).current cfg now
  { asset := key
    observedAt := (g.lastEventAt.get? key).getD now
    sourceId := "binance_liq"
    liqNotionalLongZ := reportedZ sqrt long.1.1 long.2
    liqNotionalShortZ := reportedZ sqrt short.1.1 short.2
    liqCountLong := share cfg.countCap long.1.2
    liqCountShort := share cfg.countCap short.1.2
    longNotional := long.1.1
    shortNotional := short.1.1
    longZ_mem := reportedZ_mem
    shortZ_mem := reportedZ_mem
    countLong_mem := share_mem _ _
    countShort_mem := share_mem _ _
    longNotional_nonneg := live_nonneg _ _ _
    shortNotional_nonneg := live_nonneg _ _ _ }

/-- A call on the aggregator. -/
inductive Call where
  | ingest (event : LiquidationEvent)
  | snapshot (asset : String) (now : Time)

/-- The aggregator after a call. -/
def step (cfg : LiquidationSettings) (g : LiquidationAggregator) : Call → LiquidationAggregator
  | .ingest event => g.ingest cfg event
  | .snapshot asset now => g.afterSnapshot cfg asset now

end LiquidationAggregator

/-! ## One side at a time -/

/-- What a call does to one side: it adds an event or reads the side. -/
inductive SideCall where
  | add (observedAt : Time) (notional : ℚ) (pos : 0 < notional)
  | read (now : Time)

namespace SideBuckets

/-- A side after a call. -/
def step (cfg : LiquidationSettings) (b : SideBuckets) : SideCall → SideBuckets
  | .add observedAt notional pos =>
    (b.add observedAt notional cfg.windowSeconds pos).prune (observedAt - cfg.baselineSeconds)
  | .read now => (b.current cfg now).2

end SideBuckets

namespace LiquidationAggregator

/-- What a call does to an asset's side, if it concerns it. -/
def onSide (key : String) (side : LiquidationSide) : Call → Option SideCall
  | .ingest event =>
    if upper event.asset = key ∧ event.side = side
    then some (.add event.observedAt event.notional event.notional_pos) else none
  | .snapshot asset now => if upper asset = key then some (.read now) else none

variable {cfg : LiquidationSettings}

/-- A call changes a side by what it does to it. -/
theorem sideOf_step (g : LiquidationAggregator) (call : Call) (key : String)
    (side : LiquidationSide) :
    (g.step cfg call).sideOf key side =
      match onSide key side call with
      | none => g.sideOf key side
      | some c => (g.sideOf key side).step cfg c := by
  cases call with
  | ingest event =>
    simp only [step, ingest, onSide, sideOf, Dict.get?_set]
    by_cases hkey : key = upper event.asset
    · subst hkey
      by_cases hside : event.side = side
      · subst hside
        simp [SideBuckets.step]
      · have hne : side ≠ event.side := Ne.symm hside
        simp [hside, Dict.get?_set_of_ne _ hne]
    · have hne : upper event.asset ≠ key := Ne.symm hkey
      simp [hkey, hne]
  | snapshot asset now =>
    simp only [step, afterSnapshot, onSide]
    by_cases hkey : upper asset = key
    · subst hkey
      cases hsides : g.sides.get? (upper asset) with
      | none => simp [sideOf, hsides, SideBuckets.step, SideBuckets.current, SideBuckets.empty]
      | some sides =>
        simp only [if_true, sideOf, Dict.get?_set_self, Option.getD_some, hsides]
        cases hside : sides.get? side with
        | none => simp [Dict.get?_map, hside, SideBuckets.step, SideBuckets.current,
            SideBuckets.empty]
        | some b => simp [Dict.get?_map, hside, SideBuckets.step]
    · have hne : key ≠ upper asset := Ne.symm hkey
      cases hsides : g.sides.get? (upper asset) with
      | none => simp [hkey]
      | some sides => simp [hkey, sideOf, Dict.get?_set, hne]

/-- **The sides are independent**: a run changes a side by its own calls alone. -/
theorem sideOf_run (g : LiquidationAggregator) (calls : List Call) (key : String)
    (side : LiquidationSide) :
    (run (step cfg) g calls).sideOf key side =
      run (SideBuckets.step cfg) (g.sideOf key side) (calls.filterMap (onSide key side)) := by
  induction calls generalizing g with
  | nil => rfl
  | cons call calls ih =>
    rw [run_cons, ih, sideOf_step, List.filterMap_cons]
    cases onSide key side call with
    | none => rfl
    | some c => rfl

end LiquidationAggregator

/-! ## No notional is lost -/

namespace SideBuckets

variable {cfg : LiquidationSettings} {b : SideBuckets}

/-- The starts of the closed windows. -/
def starts (entries : List (Time × ℚ)) : List Time := entries.map (·.1)

/-- The total of the entries of a window. -/
def totalOf (entries : List (Time × ℚ)) (w : Time) : ℚ :=
  ((entries.filter fun e => e.1 = w).map (·.2)).sum

/-- What the current bucket holds of a window. -/
def currentOf (b : SideBuckets) (w : Time) : ℚ :=
  if b.currentStart = some w then b.currentSum else 0

/-- What a side holds of a window, in its entries and its current bucket. -/
def held (b : SideBuckets) (w : Time) : ℚ := totalOf b.buckets w + b.currentOf w

/-- The notional a call brings to a window. -/
def brought (cfg : LiquidationSettings) (w : Time) : SideCall → ℚ
  | .add observedAt notional _ => if align observedAt cfg.windowSeconds = w then notional else 0
  | .read _ => 0

/-- The cutoff at which a call closes the current bucket, if it does. -/
def closingCutoff (cfg : LiquidationSettings) (b : SideBuckets) : SideCall → Option Time
  | .add observedAt _ _ =>
    if b.currentStart ≠ none ∧ b.currentStart ≠ some (align observedAt cfg.windowSeconds)
    then some (observedAt - cfg.baselineSeconds) else none
  | .read now =>
    if ∃ start ∈ b.currentStart, now - start ≥ cfg.windowSeconds
    then some (now - cfg.baselineSeconds) else none

/-- The cutoff a call prunes at: every event prunes, a read only when it closes the bucket. -/
def cutoff (cfg : LiquidationSettings) (b : SideBuckets) : SideCall → Option Time
  | .add observedAt _ _ => some (observedAt - cfg.baselineSeconds)
  | .read now => closingCutoff cfg b (.read now)

/-- The cutoffs a run prunes at. -/
def cutoffs (cfg : LiquidationSettings) : SideBuckets → List SideCall → List Time
  | _, [] => []
  | b, c :: cs => (cutoff cfg b c).toList ++ cutoffs cfg (b.step cfg c) cs

theorem totalOf_append (entries more : List (Time × ℚ)) (w : Time) :
    totalOf (entries ++ more) w = totalOf entries w + totalOf more w := by
  simp [totalOf]

theorem totalOf_singleton (e : Time × ℚ) (w : Time) :
    totalOf [e] w = if e.1 = w then e.2 else 0 := by
  by_cases h : e.1 = w <;> simp [totalOf, h]

theorem totalOf_of_not_mem {entries : List (Time × ℚ)} {w : Time} (h : w ∉ starts entries) :
    totalOf entries w = 0 := by
  have hnone : entries.filter (fun e => e.1 = w) = [] := by
    rw [List.filter_eq_nil_iff]
    intro e he hw
    exact h (List.mem_map.mpr ⟨e, he, by simpa using hw⟩)
  rw [totalOf, hnone]
  rfl

/-- Pruning keeps the windows from the cutoff on. -/
theorem totalOf_pruned {cutoff w : Time} (h : cutoff ≤ w) (entries : List (Time × ℚ)) :
    totalOf (pruned cutoff entries) w = totalOf entries w := by
  induction entries with
  | nil => rfl
  | cons e entries ih =>
    by_cases he : e.1 < cutoff
    · have hne : e.1 ≠ w := fun heq => absurd h (not_le.mpr (heq ▸ he))
      have hcons : totalOf (e :: entries) w = totalOf entries w := by
        simp [totalOf, hne]
      rw [hcons, ← ih, pruned, List.dropWhile_cons_of_pos (by simpa using he), ← pruned]
    · rw [pruned, List.dropWhile_cons_of_neg (by simpa using he)]

/-- An added event is held in its window, and every other window is held as before. -/
theorem held_add (b : SideBuckets) (observedAt : Time) {notional : ℚ} (window : ℚ)
    (h : 0 < notional) (w : Time) :
    (b.add observedAt notional window h).held w =
      b.held w + if align observedAt window = w then notional else 0 := by
  cases hstart : b.currentStart with
  | none =>
    have hsum : b.currentSum = 0 := b.idle hstart
    simp [add, held, currentOf, hstart, hsum]
  | some current =>
    by_cases hsame : align observedAt window = current
    · simp only [add, held, currentOf, hstart, hsame, ne_eq, not_true_eq_false, if_false,
        Option.some.injEq]
      split_ifs <;> ring
    · simp only [add, held, currentOf, hstart, hsame, ne_eq, not_false_eq_true, if_true,
        Option.some.injEq, totalOf_append, totalOf_singleton, zero_add]

/-- Reading a side keeps what it holds of the windows from the cutoff on. -/
theorem held_current (b : SideBuckets) (now w : Time)
    (h : ∀ k ∈ closingCutoff cfg b (.read now), k ≤ w) :
    (b.current cfg now).2.held w = b.held w := by
  cases hstart : b.currentStart with
  | none => simp [current, hstart]
  | some start =>
    by_cases hage : now - start ≥ cfg.windowSeconds
    · have hcut : now - cfg.baselineSeconds ≤ w := by
        refine h _ ?_
        simp [closingCutoff, hstart, hage]
      have hpos : b.currentSum > 0 := b.live (by simp [hstart])
      simp only [current, hstart, hage, if_true, hpos, held, currentOf, totalOf_pruned hcut,
        totalOf_append, totalOf_singleton, Option.some.injEq, reduceCtorEq, if_false, add_zero]
    · simp [current, hstart, hage]

/-- **One call**: a side holds what it held of a retained window and what the call brings. -/
theorem held_step (c : SideCall) (w : Time) (h : ∀ k ∈ cutoff cfg b c, k ≤ w) :
    (b.step cfg c).held w = b.held w + brought cfg w c := by
  cases c with
  | add observedAt notional pos =>
    have hcut : observedAt - cfg.baselineSeconds ≤ w := h _ rfl
    have hprune : ∀ b' : SideBuckets,
        (b'.prune (observedAt - cfg.baselineSeconds)).held w = b'.held w := by
      intro b'
      rw [held, held, prune, totalOf_pruned hcut]
      rfl
    rw [step, hprune, held_add, brought]
  | read now =>
    rw [step, brought, add_zero]
    exact held_current b now w h

/-- **A run**: a side holds of a retained window what it held and all that the calls bring. -/
theorem held_run (b : SideBuckets) (cs : List SideCall) (w : Time)
    (h : ∀ k ∈ cutoffs cfg b cs, k ≤ w) :
    (run (step cfg) b cs).held w = b.held w + (cs.map (brought cfg w)).sum := by
  induction cs generalizing b with
  | nil => simp
  | cons c cs ih =>
    have hfirst : ∀ k ∈ cutoff cfg b c, k ≤ w := fun k hk =>
      h k (List.mem_append_left _ (Option.mem_toList.mpr hk))
    have hrest : ∀ k ∈ cutoffs cfg (b.step cfg c) cs, k ≤ w := fun k hk =>
      h k (List.mem_append_right _ hk)
    rw [run_cons, ih _ hrest, held_step c w hfirst, List.map_cons, List.sum_cons]
    ring

/-! ## One entry per window -/

/-- **The call closes a re-opened bucket**: the baseline, pruned at the call's cutoff, still has
an entry of the window whose bucket the call closes. -/
def ClosesReopened (cfg : LiquidationSettings) (b : SideBuckets) (c : SideCall) : Prop :=
  ∃ start ∈ b.currentStart, ∃ k ∈ closingCutoff cfg b c, start ∈ starts (pruned k b.buckets)

/-- Pruning keeps the order of what it keeps. -/
theorem pruned_suffix (cutoff : Time) (entries : List (Time × ℚ)) :
    pruned cutoff entries <:+ entries :=
  List.dropWhile_suffix _

theorem nodup_pruned {cutoff : Time} {entries : List (Time × ℚ)} (h : (starts entries).Nodup) :
    (starts (pruned cutoff entries)).Nodup :=
  h.sublist ((pruned_suffix cutoff entries).sublist.map _)

/-- What is left after an entry is added at the back and the front is pruned: the entry is still
alone when it is not among what is left of the others. -/
theorem nodup_pruned_append_iff {cutoff : Time} {entries : List (Time × ℚ)} {e : Time × ℚ}
    (h : (starts entries).Nodup) :
    (starts (pruned cutoff (entries ++ [e]))).Nodup ↔ e.1 ∉ starts (pruned cutoff entries) := by
  induction entries with
  | nil =>
    have hone : (starts (pruned cutoff [e])).Nodup :=
      nodup_pruned (List.nodup_singleton _)
    simpa [pruned, starts] using hone
  | cons f entries ih =>
    have htail : (starts entries).Nodup := (List.nodup_cons.mp h).2
    by_cases hf : f.1 < cutoff
    · have hdrop : ∀ l, pruned cutoff (f :: l) = pruned cutoff l := fun l =>
        List.dropWhile_cons_of_pos (by simpa using hf)
      rw [List.cons_append, hdrop, hdrop]
      exact ih htail
    · have hkeep : ∀ l, pruned cutoff (f :: l) = f :: l := fun l =>
        List.dropWhile_cons_of_neg (by simpa using hf)
      rw [List.cons_append, hkeep, hkeep, ← List.cons_append]
      simp only [starts, List.map_append, List.map_cons, List.map_nil] at h ⊢
      rw [List.nodup_append]
      constructor
      · rintro ⟨-, -, hdisjoint⟩ hmem
        exact hdisjoint _ hmem _ (List.mem_singleton_self _) rfl
      · intro hnot
        refine ⟨h, List.nodup_singleton _, fun s hs t ht heq => hnot ?_⟩
        rw [List.mem_singleton] at ht
        rw [← ht, ← heq]
        exact hs

/-- **One call keeps one entry per window** exactly when it closes no re-opened bucket. -/
theorem nodup_step_iff (c : SideCall) (h : (starts b.buckets).Nodup) :
    (starts (b.step cfg c).buckets).Nodup ↔ ¬ClosesReopened cfg b c := by
  cases c with
  | add observedAt notional pos =>
    cases hstart : b.currentStart with
    | none =>
      have hkeep : (starts (pruned (observedAt - cfg.baselineSeconds) b.buckets)).Nodup :=
        nodup_pruned h
      simpa [step, add, prune, ClosesReopened, hstart] using hkeep
    | some current =>
      by_cases hsame : align observedAt cfg.windowSeconds = current
      · have hkeep : (starts (pruned (observedAt - cfg.baselineSeconds) b.buckets)).Nodup :=
          nodup_pruned h
        simpa [step, add, prune, ClosesReopened, closingCutoff, hstart, hsame] using hkeep
      · have hne : current ≠ align observedAt cfg.windowSeconds := Ne.symm hsame
        simpa [step, add, prune, ClosesReopened, closingCutoff, hstart, hsame, hne] using
          nodup_pruned_append_iff h
  | read now =>
    cases hstart : b.currentStart with
    | none => simpa [step, current, ClosesReopened, hstart] using h
    | some start =>
      by_cases hage : now - start ≥ cfg.windowSeconds
      · have hpos : b.currentSum > 0 := b.live (by simp [hstart])
        simpa [step, current, ClosesReopened, closingCutoff, hstart, hage, hpos] using
          nodup_pruned_append_iff h
      · simpa [step, current, ClosesReopened, closingCutoff, hstart, hage] using h

/-! ## When a bucket is re-opened -/

/-- **The event re-opens a window**: the side has no current bucket and an entry of the event's
window. -/
def Reopens (cfg : LiquidationSettings) (b : SideBuckets) : SideCall → Prop
  | .add observedAt _ _ =>
    b.currentStart = none ∧ align observedAt cfg.windowSeconds ∈ starts b.buckets
  | .read _ => False

/-- The moments of the events among calls. -/
def moments (cs : List SideCall) : List Time :=
  cs.filterMap fun
    | .add observedAt _ _ => some observedAt
    | .read _ => none

/-- The entries are before the current bucket, and nothing is past the bound. -/
def OrderedTo (bound : Time) (b : SideBuckets) : Prop :=
  (∀ s ∈ starts b.buckets, s ≤ bound) ∧
    ∀ c ∈ b.currentStart, c ≤ bound ∧ ∀ s ∈ starts b.buckets, s < c

theorem ordered_empty (bound : Time) : OrderedTo bound empty := ⟨nofun, nofun⟩

/-- Windows in order start no earlier than the first. -/
theorem exists_bound {window : ℚ} {ts : List Time}
    (h : ts.Pairwise fun t t' => align t window ≤ align t' window) :
    ∃ bound, ∀ t ∈ ts, bound ≤ align t window := by
  cases ts with
  | nil => exact ⟨0, nofun⟩
  | cons t ts =>
    refine ⟨align t window, fun t' ht' => ?_⟩
    rcases List.mem_cons.mp ht' with rfl | hmem
    · exact le_rfl
    · exact (List.pairwise_cons.mp h).1 t' hmem

theorem mem_of_mem_pruned {cutoff s : Time} {entries : List (Time × ℚ)}
    (h : s ∈ starts (pruned cutoff entries)) : s ∈ starts entries :=
  ((pruned_suffix cutoff entries).sublist.map _).subset h

/-- A side in order closes no re-opened bucket. -/
theorem not_closesReopened_of_ordered {bound : Time} (h : OrderedTo bound b) (c : SideCall) :
    ¬ClosesReopened cfg b c := by
  rintro ⟨start, hstart, k, -, hmem⟩
  exact lt_irrefl _ ((h.2 start hstart).2 start (mem_of_mem_pruned hmem))

theorem ordered_prune {bound : Time} (cutoff : Time) (h : OrderedTo bound b) :
    OrderedTo bound (b.prune cutoff) :=
  ⟨fun s hs => h.1 s (mem_of_mem_pruned hs),
    fun c hc => ⟨(h.2 c hc).1, fun s hs => (h.2 c hc).2 s (mem_of_mem_pruned hs)⟩⟩

/-- An event of the bound's window or a later one keeps a side in order, unless it re-opens a
window. -/
theorem ordered_add {bound observedAt : Time} {notional : ℚ} (pos : 0 < notional)
    (h : OrderedTo bound b) (hlater : bound ≤ align observedAt cfg.windowSeconds)
    (hfresh : ¬Reopens cfg b (.add observedAt notional pos)) :
    OrderedTo (align observedAt cfg.windowSeconds)
      (b.add observedAt notional cfg.windowSeconds pos) := by
  obtain ⟨hle, hcurrent⟩ := h
  cases hstart : b.currentStart with
  | none =>
    simp only [add, hstart]
    refine ⟨fun s hs => (hle s hs).trans hlater, ?_⟩
    intro c hc
    cases hc
    refine ⟨le_rfl, fun s hs => lt_of_le_of_ne ((hle s hs).trans hlater) ?_⟩
    rintro rfl
    exact hfresh ⟨hstart, hs⟩
  | some current =>
    obtain ⟨hbound, hlt⟩ := hcurrent current hstart
    by_cases hsame : align observedAt cfg.windowSeconds = current
    · simp only [add, hstart, hsame, ne_eq, not_true_eq_false, if_false]
      refine ⟨fun s hs => (hlt s hs).le, ?_⟩
      intro c hc
      cases hc
      exact ⟨le_rfl, hlt⟩
    · have hnext : current < align observedAt cfg.windowSeconds :=
        lt_of_le_of_ne (hbound.trans hlater) (Ne.symm hsame)
      have hall : ∀ s ∈ starts (b.buckets ++ [(current, b.currentSum)]),
          s < align observedAt cfg.windowSeconds := by
        intro s hs
        rw [starts, List.map_append, List.mem_append] at hs
        rcases hs with hs | hs
        · exact (hlt s hs).trans hnext
        · rw [List.map_singleton, List.mem_singleton] at hs
          rwa [hs]
      simp only [add, hstart, ne_eq, hsame, not_false_eq_true, if_true]
      refine ⟨fun s hs => (hall s hs).le, ?_⟩
      intro c hc
      cases hc
      exact ⟨le_rfl, hall⟩

/-- Reading a side keeps it in order. -/
theorem ordered_current {bound : Time} (now : Time) (h : OrderedTo bound b) :
    OrderedTo bound (b.current cfg now).2 := by
  obtain ⟨hle, hcurrent⟩ := h
  cases hstart : b.currentStart with
  | none =>
    simp only [current, hstart]
    exact ⟨hle, hcurrent⟩
  | some start =>
    by_cases hage : now - start ≥ cfg.windowSeconds
    · have hpos : b.currentSum > 0 := b.live (by simp [hstart])
      simp only [current, hstart, hage, if_true, hpos]
      refine ⟨fun s hs => ?_, nofun⟩
      have hmem := mem_of_mem_pruned hs
      rw [starts, List.map_append, List.mem_append] at hmem
      rcases hmem with hmem | hmem
      · exact hle s hmem
      · rw [List.map_singleton, List.mem_singleton] at hmem
        rw [hmem]
        exact (hcurrent start hstart).1
    · simp only [current, hstart, hage, if_false]
      exact ⟨hle, hcurrent⟩

/-- **Events in order that re-open no window** never make a call close a re-opened bucket. -/
theorem not_closesReopened_of_fresh {bound : Time} (cs : List SideCall) (h : OrderedTo bound b)
    (hlater : ∀ t ∈ moments cs, bound ≤ align t cfg.windowSeconds)
    (hsorted : (moments cs).Pairwise fun t t' =>
      align t cfg.windowSeconds ≤ align t' cfg.windowSeconds)
    (hfresh : Along (step cfg) (fun b c => ¬Reopens cfg b c) b cs) :
    Along (step cfg) (fun b c => ¬ClosesReopened cfg b c) b cs := by
  induction cs generalizing b bound with
  | nil => trivial
  | cons c cs ih =>
    refine ⟨not_closesReopened_of_ordered h c, ?_⟩
    cases c with
    | add observedAt notional pos =>
      have hmoments : moments (.add observedAt notional pos :: cs) = observedAt :: moments cs := rfl
      rw [hmoments] at hlater hsorted
      rw [List.pairwise_cons] at hsorted
      have hnow := hlater observedAt (List.mem_cons_self ..)
      exact ih (ordered_prune _ (ordered_add pos h hnow hfresh.1)) hsorted.1 hsorted.2 hfresh.2
    | read now => exact ih (ordered_current now h) hlater hsorted hfresh.2

end SideBuckets

/-! ## Whole runs -/

namespace LiquidationAggregator

open SideBuckets

variable (cfg : LiquidationSettings) (key : String) (side : LiquidationSide)

/-- The notional of a window's events among calls, on an asset's side. -/
def ingested (calls : List Call) (w : Time) : ℚ :=
  ((calls.filterMap (onSide key side)).map (brought cfg w)).sum

/-- **The window is retained**: it starts at or after every cutoff the side was pruned at. -/
def Retained (calls : List Call) (w : Time) : Prop :=
  ∀ k ∈ cutoffs cfg SideBuckets.empty (calls.filterMap (onSide key side)), k ≤ w

/-- The side after calls on a new aggregator. -/
def after (calls : List Call) : SideBuckets := (run (step cfg) empty calls).sideOf key side

/-- **The baseline has one total per window** after calls: no window has two entries, and what an
entry and the current bucket hold of a retained window is what was ingested of it; so it is with
the current bucket alone where the window has no entry. -/
structure OneTotalPerWindow (calls : List Call) : Prop where
  nodup : (starts (after cfg key side calls).buckets).Nodup
  entry : ∀ e ∈ (after cfg key side calls).buckets, Retained cfg key side calls e.1 →
    e.2 + (after cfg key side calls).currentOf e.1 = ingested cfg key side calls e.1
  fresh : ∀ w, w ∉ starts (after cfg key side calls).buckets → Retained cfg key side calls w →
    (after cfg key side calls).currentOf w = ingested cfg key side calls w

variable {cfg} {key} {side}

/-- With one entry per window, the total of the entries is the entry. -/
theorem totalOf_of_mem {entries : List (Time × ℚ)} {e : Time × ℚ} (h : (starts entries).Nodup)
    (he : e ∈ entries) : totalOf entries e.1 = e.2 := by
  induction entries with
  | nil => cases he
  | cons f entries ih =>
    obtain ⟨hnot, hnd⟩ := List.nodup_cons.mp h
    have hcons := totalOf_append [f] entries e.1
    rw [List.singleton_append, totalOf_singleton] at hcons
    rcases List.mem_cons.mp he with rfl | hmem
    · have hzero : totalOf entries e.1 = 0 := totalOf_of_not_mem hnot
      rw [hcons, if_pos rfl, hzero, add_zero]
    · have hne : f.1 ≠ e.1 := by
        intro heq
        exact hnot (List.mem_map.mpr ⟨e, hmem, heq.symm⟩)
      rw [hcons, if_neg hne, zero_add, ih hnd hmem]

theorem sideOf_empty (key : String) (side : LiquidationSide) :
    empty.sideOf key side = SideBuckets.empty := rfl

/-- The side after calls is the side after its own calls. -/
theorem after_eq (calls : List Call) :
    after cfg key side calls =
      run (SideBuckets.step cfg) SideBuckets.empty (calls.filterMap (onSide key side)) := by
  rw [after, sideOf_run, sideOf_empty]

/-- What a side holds of a retained window is what was ingested of it. -/
theorem held_after {calls : List Call} {w : Time} (h : Retained cfg key side calls w) :
    (after cfg key side calls).held w = ingested cfg key side calls w := by
  have hempty : SideBuckets.empty.held w = 0 := by
    simp [held, totalOf, currentOf, SideBuckets.empty]
  rw [after_eq, held_run _ _ w h, hempty, zero_add, ingested]

/-- With one entry per window the totals follow. -/
theorem oneTotalPerWindow_of_nodup {calls : List Call}
    (h : (starts (after cfg key side calls).buckets).Nodup) :
    OneTotalPerWindow cfg key side calls where
  nodup := h
  entry := fun e he hretained => by
    rw [← held_after hretained, held, totalOf_of_mem h he]
  fresh := fun w hw hretained => by
    rw [← held_after hretained, held, totalOf_of_not_mem hw, zero_add]

/-- **The call closes a re-opened bucket** of some asset's side. -/
def ClosesReopened (cfg : LiquidationSettings) (g : LiquidationAggregator) (call : Call) : Prop :=
  ∃ key side, ∃ c ∈ onSide key side call, (g.sideOf key side).ClosesReopened cfg c

/-- One call keeps one entry per window on every side when it closes no re-opened bucket. -/
theorem nodup_step (g : LiquidationAggregator) (call : Call) (hcall : ¬ClosesReopened cfg g call)
    (h : ∀ key side, (starts (g.sideOf key side).buckets).Nodup) :
    ∀ key side, (starts ((g.step cfg call).sideOf key side).buckets).Nodup := by
  intro key side
  rw [sideOf_step]
  cases hon : onSide key side call with
  | none => exact h key side
  | some c =>
    exact (nodup_step_iff c (h key side)).mpr fun hcloses => hcall ⟨key, side, c, hon, hcloses⟩

/-- **The liquidation baseline has one total per window** at every moment of a run exactly when
no call of the run closes a bucket that a late event had re-opened while the baseline still holds
the window's entry. -/
theorem oneTotalPerWindow_iff (cfg : LiquidationSettings) (calls : List Call) :
    (∀ done, done <+: calls → ∀ key side, OneTotalPerWindow cfg key side done) ↔
      Along (step cfg) (fun g call => ¬ClosesReopened cfg g call) empty calls := by
  constructor
  · intro h
    rw [along_iff_split]
    rintro done call rest hcalls ⟨key, side, c, hon, hcloses⟩
    have hbefore := (h done ⟨call :: rest, hcalls.symm⟩ key side).nodup
    have hafter := (h (done ++ [call]) ⟨rest, by simp [hcalls]⟩ key side).nodup
    rw [after, run_append, run_cons, run_nil, sideOf_step, hon] at hafter
    exact (nodup_step_iff c hbefore).mp hafter hcloses
  · rintro h done ⟨rest, rfl⟩ key side
    have hdone := ((along_append empty done rest).mp h).1
    have hempty : ∀ key side, (starts (empty.sideOf key side).buckets).Nodup :=
      fun _ _ => List.nodup_nil
    have hnodup := run_invariant_along
      (I := fun g => ∀ key side, (starts (g.sideOf key side).buckets).Nodup)
      (fun g call hcall h => nodup_step g call hcall h) empty done hdone hempty
    exact oneTotalPerWindow_of_nodup (hnodup key side)

/-- **No event for a closed window**: when the events of each side come in order and none of them
is for a window whose bucket was closed, no call closes a re-opened bucket. -/
theorem no_closesReopened_of_fresh (hwindow : 0 < cfg.windowSeconds) (calls : List Call)
    (hsorted : ∀ key side, (moments (calls.filterMap (onSide key side))).Pairwise (· ≤ ·))
    (hfresh : ∀ key side, Along (SideBuckets.step cfg) (fun b c => ¬Reopens cfg b c)
      SideBuckets.empty (calls.filterMap (onSide key side))) :
    Along (step cfg) (fun g call => ¬ClosesReopened cfg g call) empty calls := by
  rw [along_iff_split]
  rintro done call rest rfl ⟨key, side, c, hon, hcloses⟩
  have hside := hsorted key side
  have haligned : (moments ((done ++ call :: rest).filterMap (onSide key side))).Pairwise
      fun t t' => align t cfg.windowSeconds ≤ align t' cfg.windowSeconds :=
    hside.imp fun hle => align_mono hwindow hle
  obtain ⟨bound, hbound⟩ := exists_bound haligned
  have halong := not_closesReopened_of_fresh _ (ordered_empty bound) hbound haligned
    (hfresh key side)
  rw [List.filterMap_append, List.filterMap_cons, hon] at halong
  have hcall := ((along_append _ _ _).mp halong).2.1
  rw [← sideOf_empty key side, ← sideOf_run] at hcall
  exact hcall hcloses

/-! ### A late event after a snapshot -/

namespace Belated

/-- Windows of a minute, a baseline of a quarter of an hour. -/
def settings : LiquidationSettings where
  windowSeconds := 60
  baselineSeconds := 900
  countCap := 20

/-- A long liquidation of BTC. -/
def event (observedAt : Time) (notional : ℚ) (h : 0 < notional) : LiquidationEvent where
  asset := "BTC"
  observedAt := observedAt
  side := .long
  notional := notional
  notional_pos := h

theorem notionals_pos : (0 : ℚ) < 100 ∧ (0 : ℚ) < 200 ∧ (0 : ℚ) < 50 := by norm_num

/-- The snapshot at 70 closes the first minute; the event of second 50 arrives after it. -/
def calls : List Call :=
  [.ingest (event 10 100 notionals_pos.1), .snapshot "BTC" 70,
   .ingest (event 50 200 notionals_pos.2.1), .ingest (event 65 50 notionals_pos.2.2)]

end Belated

/-- The first minute is two entries of the baseline, of 100 and of 200, though the events came in
order. -/
theorem belated_window_entered_twice :
    (after Belated.settings "BTC" .long Belated.calls).buckets = [(0, 100), (0, 200)] ∧
      ¬OneTotalPerWindow Belated.settings "BTC" .long Belated.calls := by
  have hbuckets :
      (after Belated.settings "BTC" .long Belated.calls).buckets = [(0, 100), (0, 200)] := by
    decide +kernel
  refine ⟨hbuckets, fun h => ?_⟩
  have hnodup := h.nodup
  rw [hbuckets] at hnodup
  exact absurd hnodup (by decide)

end LiquidationAggregator

end TraderStack
