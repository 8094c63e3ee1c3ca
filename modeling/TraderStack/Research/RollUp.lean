import TraderStack.Research.CandleArchives

/-!
# Rolling up composes (research/candle_archives.py)

A series on a grid assigns bars to cells; its buckets are windows of cells. A target bar
is emitted for each window that is full, so that rolling up twice cuts the windows of the
longer interval into chunks.

- `aggregate_eq`: a whole multiple is rolled up;
- `mem_rollBuckets_iff`: which bars that gives;
- `rollup_composes`: the composition law, what is emitted, and the count of the gaps.
-/

namespace TraderStack

open Lib

/-! ## Series on a grid -/

/-- A series: sorted, without duplicates, on the grid of a step. -/
structure GridSeries (step : ℚ) (candles : List Candle) : Prop where
  sorted : candles.Pairwise fun c d => c.openedAt < d.openedAt
  aligned : ∀ c ∈ candles, ∃ k : ℤ, c.openedAt = k * step

/-- The cell of a bar. -/
def gridIndex (step : ℚ) (c : Candle) : ℤ := ⌊c.openedAt / step⌋

theorem gridIndex_of_eq {step : ℚ} (hstep : 0 < step) {c : Candle} {k : ℤ}
    (h : c.openedAt = k * step) : gridIndex step c = k := by
  unfold gridIndex
  rw [h, mul_div_cancel_right₀ _ hstep.ne', Int.floor_intCast]

variable {step : ℚ} {candles : List Candle}

theorem GridSeries.openedAt_eq (h : GridSeries step candles) (hstep : 0 < step) {c : Candle}
    (hc : c ∈ candles) : c.openedAt = gridIndex step c * step := by
  obtain ⟨k, hk⟩ := h.aligned c hc
  rw [gridIndex_of_eq hstep hk, hk]

theorem GridSeries.index_lt (h : GridSeries step candles) (hstep : 0 < step) :
    candles.Pairwise fun c d => gridIndex step c < gridIndex step d := by
  refine List.Pairwise.imp_of_mem ?_ h.sorted
  intro c d hc hd hlt
  rw [h.openedAt_eq hstep hc, h.openedAt_eq hstep hd] at hlt
  exact_mod_cast lt_of_mul_lt_mul_right hlt hstep.le

/-! ## Buckets are windows -/

/-- The bucket of a cell: the quotient of its index. -/
theorem bucketStart_cell (p m : ℕ) (hp : 0 < p) (k : ℤ) :
    bucketStart (m * p : ℤ) ((k : ℚ) * p) = k / m * (m * p) := by
  have hcast : (k : ℚ) * p = ((k * p : ℤ) : ℚ) := by push_cast; ring
  unfold bucketStart
  rw [hcast, truncate_intCast]
  have hmod : k * (p : ℤ) % (m * p) = k % m * p := by
    rw [mul_comm (m : ℤ) p, mul_comm k (p : ℤ), Int.mul_emod_mul_of_pos _ _ (by exact_mod_cast hp),
      mul_comm]
  have hdiv := Int.emod_add_mul_ediv k m
  rw [hmod]
  linear_combination -(p : ℤ) * hdiv

section Buckets

variable {p m : ℕ} (hp : 0 < p) (hm : 0 < m) (h : GridSeries p candles)

include hp h

theorem GridSeries.bucketStart_eq {c : Candle} (hc : c ∈ candles) :
    bucketStart (m * p : ℤ) c.openedAt = gridIndex p c / m * (m * p) := by
  have hstep : (0 : ℚ) < p := by exact_mod_cast hp
  rw [h.openedAt_eq hstep hc, bucketStart_cell p m hp]

include hm

/-- **A bucket holds the bars of a window.** -/
theorem GridSeries.bucket_eq (k : ℤ) :
    (((groupBy (fun c => bucketStart (m * p : ℤ) c.openedAt) candles).get?
        (k * (m * p))).getD []).insertionSort (fun c d => c.openedAt ≤ d.openedAt)
      = inWindow (gridIndex p) candles (k * m) m := by
  have hfilter : candles.filter (fun c => bucketStart (m * p : ℤ) c.openedAt = k * (m * p))
      = inWindow (gridIndex p) candles (k * m) m := by
    unfold inWindow
    refine List.filter_congr fun c hc => ?_
    have hpos : (0 : ℤ) < m := by exact_mod_cast hm
    have hne : (m * p : ℤ) ≠ 0 := by positivity
    rw [h.bucketStart_eq hp hc, decide_eq_decide, mul_left_inj' hne, Int.ediv_eq_iff_of_pos hpos]
  rw [getD_groupBy, hfilter]
  refine List.Pairwise.insertionSort_eq ?_
  exact (h.sorted.filter _).imp le_of_lt

/-- **A bar is emitted for each window that is full.** -/
theorem mem_rollBuckets_iff {target : String} {bar : Candle} :
    bar ∈ rollBuckets candles target (m * p) m ↔
      ∃ (k : ℤ) (members : List Candle),
        window (cellOf (gridIndex p) candles) (k * m) m = some members ∧
        rollUp target ((k * (m * p) : ℤ) : ℚ) members = some bar := by
  have hstep : (0 : ℚ) < p := by exact_mod_cast hp
  have hindex := h.index_lt hstep
  unfold rollBuckets
  rw [List.mem_filterMap]
  constructor
  · rintro ⟨start, hstart, hbar⟩
    obtain ⟨c, hc, rfl⟩ := mem_keys_groupBy.mp ((List.mem_insertionSort _).mp hstart)
    rw [h.bucketStart_eq hp hc, h.bucket_eq hp hm] at hbar
    dsimp only at hbar
    split at hbar
    · rename_i hlen
      refine ⟨_, _, ?_, hbar⟩
      rw [window_cell hindex, if_pos (by exact_mod_cast hlen)]
    · cases hbar
  · rintro ⟨k, members, hwindow, hbar⟩
    rw [window_cell hindex] at hwindow
    split at hwindow
    · rename_i hlen
      obtain rfl := Option.some.inj hwindow
      refine ⟨k * (m * p), ?_, ?_⟩
      · -- The window is not empty, and its first bar is in the bucket.
        obtain ⟨c, hc⟩ : ∃ c, c ∈ inWindow (gridIndex p) candles (k * m) m :=
          List.exists_mem_of_ne_nil _ fun hnil => by
            rw [hnil] at hlen
            exact hm.ne hlen
        obtain ⟨hmem, hin⟩ := List.mem_filter.mp hc
        have hpos : (0 : ℤ) < m := by exact_mod_cast hm
        refine (List.mem_insertionSort _).mpr (mem_keys_groupBy.mpr ⟨c, hmem, ?_⟩)
        rw [h.bucketStart_eq hp hmem,
          (Int.ediv_eq_iff_of_pos hpos).mpr (of_decide_eq_true hin)]
      · rw [h.bucket_eq hp hm]
        dsimp only
        rw [if_pos (by exact_mod_cast hlen)]
        exact hbar
    · cases hwindow

end Buckets

theorem openedAt_of_rollUp {target : String} {t : Time} {members : List Candle} {bar : Candle}
    (h : rollUp target t members = some bar) : bar.openedAt = t := by
  cases members with
  | nil => cases h
  | cons first rest =>
    rw [← Option.some.inj h]

/-- The bars of the buckets are a series again. -/
theorem rollBuckets_series {p m : ℕ} (hp : 0 < p) (hm : 0 < m) (h : GridSeries p candles)
    (target : String) : GridSeries (m * p : ℕ) (rollBuckets candles target (m * p) m) where
  sorted := by
    unfold rollBuckets
    have hkeys : ((groupBy (fun c => bucketStart (m * p : ℤ) c.openedAt) candles).keys.insertionSort
        fun k j => k ≤ j).Pairwise (· < ·) := by
      have hnodup : ((groupBy (fun c => bucketStart (m * p : ℤ) c.openedAt)
          candles).keys.insertionSort fun k j => k ≤ j).Nodup :=
        (List.perm_insertionSort _ _).nodup_iff.mpr (Dict.nodup _)
      have hle := List.pairwise_insertionSort (fun k j : ℤ => k ≤ j)
        (groupBy (fun c => bucketStart (m * p : ℤ) c.openedAt) candles).keys
      exact (hle.and hnodup).imp fun hboth => lt_of_le_of_ne hboth.1 hboth.2
    refine hkeys.filterMap _ fun k j hkj bar hbar bar' hbar' => ?_
    dsimp only at hbar hbar'
    split at hbar
    · split at hbar'
      · rw [openedAt_of_rollUp hbar, openedAt_of_rollUp hbar']
        exact_mod_cast hkj
      · cases hbar'
    · cases hbar
  aligned bar hbar := by
    obtain ⟨k, members, -, hroll⟩ := (mem_rollBuckets_iff hp hm h).mp hbar
    refine ⟨k, ?_⟩
    rw [openedAt_of_rollUp hroll]
    push_cast
    ring

/-! ## The bar of a window -/

/-- A bar has the opening, the close, the extremes and the volume of its parts. -/
structure RolledFrom (target : String) (bar : Candle) (members : List Candle) : Prop where
  interval : bar.interval = target
  symbol : members.head?.map Candle.symbol = some bar.symbol
  openPrice : members.head?.map Candle.openPrice = some bar.openPrice
  close : members.getLast?.map Candle.close = some bar.close
  high : IsGreatest {x | ∃ c ∈ members, c.high = x} bar.high
  low : IsLeast {x | ∃ c ∈ members, c.low = x} bar.low
  volume : bar.volume = (members.map Candle.volume).sum

theorem rollUp_isSome (target : String) (t : Time) {members : List Candle} (h : members ≠ []) :
    (rollUp target t members).isSome := by
  cases members with
  | nil => exact absurd rfl h
  | cons first rest => rfl

theorem rolledFrom_of_rollUp {target : String} {t : Time} {members : List Candle} {bar : Candle}
    (h : rollUp target t members = some bar) : RolledFrom target bar members := by
  cases members with
  | nil => cases h
  | cons first rest =>
    rw [← Option.some.inj h]
    refine ⟨rfl, rfl, rfl, ?_, isGreatest_highest first rest, isLeast_lowest first rest, rfl⟩
    show _ = some (lastBar first rest).close
    unfold lastBar
    rw [List.getLast?_cons]
    rfl

/-- The parts determine the bar. -/
theorem RolledFrom.unique {target : String} {members : List Candle} {bar bar' : Candle}
    (h : RolledFrom target bar members) (h' : RolledFrom target bar' members)
    (hopened : bar.openedAt = bar'.openedAt) : bar = bar' := by
  have hinterval := h.interval.trans h'.interval.symm
  have hsymbol := Option.some.inj (h.symbol.symm.trans h'.symbol)
  have hopen := Option.some.inj (h.openPrice.symm.trans h'.openPrice)
  have hclose := Option.some.inj (h.close.symm.trans h'.close)
  have hhigh := h.high.unique h'.high
  have hlow := h.low.unique h'.low
  have hvolume := h.volume.trans h'.volume.symm
  cases bar
  cases bar'
  simp only [Candle.mk.injEq]
  exact ⟨hsymbol, hinterval, hopened, hopen, hhigh, hlow, hclose, hvolume⟩

section Fuse

variable {source target : String} {bars : List Candle} {chunks : List (List Candle)}
  (hall : List.Forall₂ (RolledFrom source) bars chunks)

include hall

theorem flatten_head?_map {β : Type} (g : Candle → β)
    (hg : ∀ bar chunk, RolledFrom source bar chunk → chunk.head?.map g = some (g bar)) :
    chunks.flatten.head?.map g = bars.head?.map g := by
  cases hall with
  | nil => rfl
  | @cons bar chunk bars chunks hbar _ =>
    have hhead := hg bar chunk hbar
    cases chunk with
    | nil => cases hhead
    | cons first rest => exact hhead

theorem flatten_close : chunks.flatten.getLast?.map Candle.close
    = bars.getLast?.map Candle.close := by
  induction hall with
  | nil => rfl
  | @cons bar chunk bars chunks hbar _ ih =>
    rw [List.flatten_cons, List.getLast?_append, List.getLast?_cons]
    cases hlast : chunks.flatten.getLast? with
    | none =>
      rw [hlast] at ih
      have hbars : bars.getLast? = none := by
        cases hb : bars.getLast? with
        | none => rfl
        | some b =>
          rw [hb] at ih
          cases ih
      rw [hbars]
      exact hbar.close
    | some c =>
      rw [hlast] at ih
      cases hb : bars.getLast? with
      | none =>
        rw [hb] at ih
        cases ih
      | some b =>
        rw [hb] at ih
        exact ih

theorem flatten_volume : (chunks.flatten.map Candle.volume).sum
    = (bars.map Candle.volume).sum := by
  induction hall with
  | nil => rfl
  | cons hbar _ ih =>
    rw [List.flatten_cons, List.map_append, List.sum_append, ih, List.map_cons, List.sum_cons,
      hbar.volume]

theorem exists_chunk {bar : Candle} (hmem : bar ∈ bars) :
    ∃ chunk ∈ chunks, RolledFrom source bar chunk := by
  induction hall with
  | nil => exact absurd hmem List.not_mem_nil
  | cons hbar _ ih =>
    rcases List.mem_cons.mp hmem with rfl | hmem
    · exact ⟨_, List.mem_cons_self, hbar⟩
    · obtain ⟨chunk, hchunk, hrolled⟩ := ih hmem
      exact ⟨chunk, List.mem_cons_of_mem _ hchunk, hrolled⟩

theorem exists_bar {chunk : List Candle} (hmem : chunk ∈ chunks) :
    ∃ bar ∈ bars, RolledFrom source bar chunk := by
  induction hall with
  | nil => exact absurd hmem List.not_mem_nil
  | cons hbar _ ih =>
    rcases List.mem_cons.mp hmem with rfl | hmem
    · exact ⟨_, List.mem_cons_self, hbar⟩
    · obtain ⟨bar, hin, hrolled⟩ := ih hmem
      exact ⟨bar, List.mem_cons_of_mem _ hin, hrolled⟩

/-- **A bar of bars is the bar of all their parts.** -/
theorem RolledFrom.fuse {bar : Candle} (h : RolledFrom target bar bars) :
    RolledFrom target bar chunks.flatten where
  interval := h.interval
  symbol := (flatten_head?_map hall Candle.symbol fun _ _ hbar => hbar.symbol).trans h.symbol
  openPrice :=
    (flatten_head?_map hall Candle.openPrice fun _ _ hbar => hbar.openPrice).trans h.openPrice
  close := (flatten_close hall).trans h.close
  volume := h.volume.trans (flatten_volume hall).symm
  high := by
    constructor
    · obtain ⟨b, hb, hhigh⟩ := h.high.1
      obtain ⟨chunk, hchunk, hrolled⟩ := exists_chunk hall hb
      obtain ⟨c, hc, hmost⟩ := hrolled.high.1
      exact ⟨c, List.mem_flatten.mpr ⟨chunk, hchunk, hc⟩, hmost.trans hhigh⟩
    · rintro x ⟨c, hc, rfl⟩
      obtain ⟨chunk, hchunk, hin⟩ := List.mem_flatten.mp hc
      obtain ⟨b, hb, hrolled⟩ := exists_bar hall hchunk
      exact (hrolled.high.2 ⟨c, hin, rfl⟩).trans (h.high.2 ⟨b, hb, rfl⟩)
  low := by
    constructor
    · obtain ⟨b, hb, hlow⟩ := h.low.1
      obtain ⟨chunk, hchunk, hrolled⟩ := exists_chunk hall hb
      obtain ⟨c, hc, hleast⟩ := hrolled.low.1
      exact ⟨c, List.mem_flatten.mpr ⟨chunk, hchunk, hc⟩, hleast.trans hlow⟩
    · rintro x ⟨c, hc, rfl⟩
      obtain ⟨chunk, hchunk, hin⟩ := List.mem_flatten.mp hc
      obtain ⟨b, hb, hrolled⟩ := exists_bar hall hchunk
      exact (h.low.2 ⟨b, hb, rfl⟩).trans (hrolled.low.2 ⟨c, hin, rfl⟩)

end Fuse

/-! ## Two steps are one -/

instance : Std.Antisymm fun c d : Candle => c.openedAt < d.openedAt where
  antisymm _ _ hcd hdc := absurd hdc (lt_asymm hcd)

instance : Std.Irrefl fun c d : Candle => c.openedAt < d.openedAt where
  irrefl c := lt_irrefl c.openedAt

section TwoSteps

variable {p m n : ℕ} (hp : 0 < p) (hm : 0 < m) (hn : 0 < n) (h : GridSeries p candles)

include hp hm h

/-- The rolled-up series at a cell. -/
theorem cellOf_rollBuckets (target : String) (j : ℤ) :
    cellOf (gridIndex (m * p : ℕ)) (rollBuckets candles target (m * p) m) j
      = (window (cellOf (gridIndex p) candles) (j * m) m).bind
          (rollUp target ((j * (m * p) : ℤ) : ℚ)) := by
  have hseries := rollBuckets_series hp hm h target
  have hstep : (0 : ℚ) < ((m * p : ℕ) : ℚ) := by exact_mod_cast Nat.mul_pos hm hp
  have hindex : ∀ {k : ℤ} {members bar},
      rollUp target ((k * (m * p) : ℤ) : ℚ) members = some bar → gridIndex (m * p : ℕ) bar = k := by
    intro k members bar hroll
    refine gridIndex_of_eq hstep ?_
    rw [openedAt_of_rollUp hroll]
    push_cast
    ring
  refine Option.ext fun bar => ?_
  rw [cellOf_eq_some_iff (hseries.index_lt hstep), mem_rollBuckets_iff hp hm h]
  rw [Option.bind_eq_some_iff]
  constructor
  · rintro ⟨⟨k, members, hwindow, hroll⟩, hk⟩
    obtain rfl := (hindex hroll).symm.trans hk
    exact ⟨members, hwindow, hroll⟩
  · rintro ⟨members, hwindow, hroll⟩
    exact ⟨⟨j, members, hwindow, hroll⟩, hindex hroll⟩

include hn

/-- **Rolling up twice is rolling up once.** -/
theorem rollBuckets_rollBuckets (mid target : String) :
    rollBuckets (rollBuckets candles mid (m * p) m) target (n * (m * p : ℕ)) n
      = rollBuckets candles target ((n * m : ℕ) * p) (n * m : ℕ) := by
  have hmp : 0 < m * p := Nat.mul_pos hm hp
  have hnm : 0 < n * m := Nat.mul_pos hn hm
  have hmid := rollBuckets_series hp hm h mid
  refine List.Pairwise.eq_of_mem_iff (rollBuckets_series hmp hn hmid target).sorted
    (rollBuckets_series hp hnm h target).sorted fun bar => ?_
  rw [mem_rollBuckets_iff hmp hn hmid, mem_rollBuckets_iff hp hnm h]
  have hchunks : ∀ k : ℤ, Chunks (fun j l => rollUp mid ((j * (m * p) : ℤ) : ℚ) l) m
      (window (cellOf (gridIndex (m * p : ℕ)) (rollBuckets candles mid (m * p) m)) (k * n) n)
      (window (cellOf (gridIndex p) candles) (k * (n * m : ℕ)) (n * m)) := by
    intro k
    have hstart : k * ((n * m : ℕ) : ℤ) = k * n * m := by push_cast; ring
    rw [hstart]
    refine chunks_window (fun j => cellOf_rollBuckets hp hm h mid j) (fun j l hl => ?_) _ n
    exact rollUp_isSome mid _ (List.ne_nil_of_length_pos (hl.symm ▸ hm))
  have htime : ∀ k : ℤ, ((k * (n * (m * p : ℕ)) : ℤ) : ℚ) = ((k * ((n * m : ℕ) * p) : ℤ) : ℚ) := by
    intro k
    push_cast
    ring
  -- Both are the bar of the same bars, cut into chunks or not.
  have hsame : ∀ (k : ℤ) {bars : List Candle} {chunks : List (List Candle)} {one two : Candle},
      List.Forall₂ (fun b chunk => chunk.length = m ∧
        ∃ j : ℤ, rollUp mid ((j * (m * p) : ℤ) : ℚ) chunk = some b) bars chunks →
      rollUp target ((k * (n * (m * p : ℕ)) : ℤ) : ℚ) bars = some one →
      rollUp target ((k * ((n * m : ℕ) * p) : ℤ) : ℚ) chunks.flatten = some two → one = two := by
    intro k bars chunks one two hall hone htwo
    have hrolled : List.Forall₂ (RolledFrom mid) bars chunks :=
      hall.imp fun b chunk hb => rolledFrom_of_rollUp hb.2.choose_spec
    refine ((rolledFrom_of_rollUp hone).fuse hrolled).unique (rolledFrom_of_rollUp htwo) ?_
    rw [openedAt_of_rollUp hone, openedAt_of_rollUp htwo, htime]
  constructor
  · rintro ⟨k, bars, hwindow, hroll⟩
    have hcut := hchunks k
    rw [hwindow] at hcut
    generalize hlong : window (cellOf (gridIndex p) candles) (k * (n * m : ℕ)) (n * m) = long
      at hcut
    cases hcut with
    | cut _ chunks hall =>
      have hlength := length_window hlong
      obtain ⟨two, htwo⟩ := Option.isSome_iff_exists.mp (rollUp_isSome target
        ((k * ((n * m : ℕ) * p) : ℤ) : ℚ) (List.ne_nil_of_length_pos (hlength.symm ▸ hnm)))
      obtain rfl := hsame k hall hroll htwo
      exact ⟨k, chunks.flatten, hlong, htwo⟩
  · rintro ⟨k, members, hwindow, hroll⟩
    have hcut := hchunks k
    rw [hwindow] at hcut
    generalize hshort : window (cellOf (gridIndex (m * p : ℕ))
      (rollBuckets candles mid (m * p) m)) (k * n) n = short at hcut
    cases hcut with
    | cut bars chunks hall =>
      have hlength := length_window hshort
      obtain ⟨one, hone⟩ := Option.isSome_iff_exists.mp (rollUp_isSome target
        ((k * (n * (m * p : ℕ)) : ℤ) : ℚ) (List.ne_nil_of_length_pos (hlength.symm ▸ hn)))
      obtain rfl := hsame k hall hone hroll
      exact ⟨k, bars, hshort, hone⟩

end TwoSteps

/-! ## What is rolled up -/

theorem intervalUnitSeconds_pos {unit : String} {seconds : ℕ}
    (h : intervalUnitSeconds unit = some seconds) : 0 < seconds := by
  unfold intervalUnitSeconds at h
  split at h
  all_goals cases h
  all_goals decide

theorem seconds_of_magnitude {e : PipelineError} {magnitude unit : ℕ} {seconds : ℚ}
    (hunit : 0 < unit)
    (h : (if magnitude = 0 then .error e else .ok ((magnitude * unit : ℕ) : ℚ))
      = Except.ok seconds) : ∃ p : ℕ, 0 < p ∧ seconds = p := by
  split at h
  · cases h
  · exact ⟨_, Nat.mul_pos (Nat.pos_of_ne_zero ‹_›) hunit, (Except.ok.inj h).symm⟩

theorem intervalToSeconds_pos {interval : String} {seconds : ℚ}
    (h : intervalToSeconds interval = .ok seconds) : ∃ p : ℕ, 0 < p ∧ seconds = p := by
  unfold intervalToSeconds at h
  dsimp only at h
  cases hunit : intervalUnitSeconds (String.ofList ((Text.lower (String.ofList
      (Text.strip interval.toList))).toList.filter fun c => !c.isDigit)) with
  | none =>
    rw [hunit] at h
    cases h
  | some unit =>
    rw [hunit] at h
    exact seconds_of_magnitude (intervalUnitSeconds_pos hunit) h

/-- A whole multiple is rolled up. -/
theorem aggregate_eq {source target : String} {p m : ℕ} (hp : 0 < p) (hm : 2 ≤ m)
    (hsource : intervalToSeconds source = .ok (p : ℚ))
    (htarget : intervalToSeconds target = .ok ((m * p : ℕ) : ℚ)) (candles : List Candle) :
    aggregate candles source target = .ok (rollBuckets candles target (m * p) m) := by
  have hne : (p : ℚ) ≠ 0 := by exact_mod_cast hp.ne'
  have hfactor : ((m * p : ℕ) : ℚ) / p = ((m : ℤ) : ℚ) := by
    push_cast
    exact mul_div_cancel_right₀ _ hne
  have hstep : ((m * p : ℕ) : ℚ) = ((m * p : ℤ) : ℚ) := by push_cast; ring
  unfold aggregate
  rw [htarget, hsource]
  dsimp only
  rw [hfactor, truncate_intCast, hstep, truncate_intCast, if_neg]
  rintro (hsmall | hne)
  · omega
  · exact hne rfl

/-- What rolling a series up gives: a series of the longer step, with a bar for each of its
cells whose parts are all there, and with no other. -/
structure RollsUp (step : ℚ) (factor : ℕ) (target : String) (candles rolled : List Candle) :
    Prop where
  series : GridSeries (factor * step) rolled
  emitted : ∀ k : ℤ, (∃ bar ∈ rolled, bar.openedAt = k * (factor * step)) ↔
    ∀ i < factor, ∃ c ∈ candles, c.openedAt = k * (factor * step) + i * step
  bars : ∀ bar ∈ rolled, ∃ members : List Candle, members.length = factor ∧
    (∀ (i : ℕ) c, members[i]? = some c → c ∈ candles ∧ c.openedAt = bar.openedAt + i * step) ∧
    RolledFrom target bar members

/-- **A bar is emitted if and only if all its parts are present**, and is made of them. -/
theorem rollBuckets_rollsUp {p m : ℕ} (hp : 0 < p) (hm : 0 < m) (h : GridSeries p candles)
    (target : String) : RollsUp p m target candles (rollBuckets candles target (m * p) m) := by
  have hstep : (0 : ℚ) < p := by exact_mod_cast hp
  have hindex := h.index_lt hstep
  have hcell : ∀ {j : ℤ} {c : Candle}, cellOf (gridIndex p) candles j = some c →
      c ∈ candles ∧ c.openedAt = j * p := by
    intro j c hc
    obtain ⟨hmem, hj⟩ := (cellOf_eq_some_iff hindex).mp hc
    exact ⟨hmem, by rw [h.openedAt_eq hstep hmem, hj]⟩
  refine ⟨?_, fun k => ⟨?_, fun hall => ?_⟩, fun bar hbar => ?_⟩
  · have hseries := rollBuckets_series hp hm h target
    rwa [Nat.cast_mul] at hseries
  · rintro ⟨bar, hbar, hopened⟩ i hi
    obtain ⟨j, members, hwindow, hroll⟩ := (mem_rollBuckets_iff hp hm h).mp hbar
    have hj : (j : ℚ) * (m * p) = k * (m * p) := by
      rw [← hopened, openedAt_of_rollUp hroll]
      push_cast
      ring
    have hcells := window_isSome_iff.mp (Option.isSome_iff_exists.mpr ⟨members, hwindow⟩) i hi
    obtain ⟨c, hc⟩ := Option.isSome_iff_exists.mp hcells
    obtain ⟨hmem, hat⟩ := hcell hc
    refine ⟨c, hmem, ?_⟩
    rw [hat, ← hj]
    push_cast
    ring
  · have hwindow : (window (cellOf (gridIndex p) candles) (k * m) m).isSome := by
      refine window_isSome_iff.mpr fun i hi => ?_
      obtain ⟨c, hmem, hat⟩ := hall i hi
      refine Option.isSome_iff_exists.mpr ⟨c, (cellOf_eq_some_iff hindex).mpr ⟨hmem, ?_⟩⟩
      refine gridIndex_of_eq hstep ?_
      rw [hat]
      push_cast
      ring
    obtain ⟨members, hmembers⟩ := Option.isSome_iff_exists.mp hwindow
    have hne : members ≠ [] := List.ne_nil_of_length_pos ((length_window hmembers).symm ▸ hm)
    obtain ⟨bar, hroll⟩ := Option.isSome_iff_exists.mp
      (rollUp_isSome target ((k * (m * p) : ℤ) : ℚ) hne)
    refine ⟨bar, (mem_rollBuckets_iff hp hm h).mpr ⟨k, members, hmembers, hroll⟩, ?_⟩
    rw [openedAt_of_rollUp hroll]
    push_cast
    ring
  · obtain ⟨k, members, hwindow, hroll⟩ := (mem_rollBuckets_iff hp hm h).mp hbar
    refine ⟨members, length_window hwindow, fun i c hi => ?_, rolledFrom_of_rollUp hroll⟩
    have hlt : i < m := by
      rw [← length_window hwindow]
      exact (List.getElem?_eq_some_iff.mp hi).1
    rw [getElem?_window hwindow hlt] at hi
    obtain ⟨hmem, hat⟩ := hcell hi
    refine ⟨hmem, ?_⟩
    rw [hat, openedAt_of_rollUp hroll]
    push_cast
    ring

/-! ## Gaps -/

/-- The missing bars of a hole are the cells between its ends. -/
theorem gapBetween_missing {p : ℕ} (hp : 0 < p) {c d : Candle} {j k : ℤ}
    (hc : c.openedAt = j * (p : ℚ)) (hd : d.openedAt = k * (p : ℚ)) (hjk : j < k) :
    ((gapBetween p c d).elim 0 CandleGap.missingBars) = k - j - 1 := by
  have hstep : (0 : ℚ) < p := by exact_mod_cast hp
  have hdelta : d.openedAt - c.openedAt = ((k - j : ℤ) : ℚ) * p := by
    rw [hc, hd]
    push_cast
    ring
  unfold gapBetween
  dsimp only
  rw [hdelta, mul_div_cancel_right₀ _ hstep.ne', truncate_intCast]
  by_cases hone : k - j = 1
  · rw [hone, Int.cast_one, one_mul, if_pos (le_refl _)]
    rfl
  · have hmore : ¬((k - j : ℤ) : ℚ) * p ≤ p := by
      rw [not_le]
      have htwo : (1 : ℚ) < ((k - j : ℤ) : ℚ) := by exact_mod_cast (by omega : 1 < k - j)
      nlinarith
    rw [if_neg hmore, if_pos (by omega)]
    rfl

/-- **Bars and missing bars fill the cells between the ends.** -/
theorem sum_gaps {p : ℕ} (hp : 0 < p) {first : Candle} {rest : List Candle}
    (h : GridSeries p (first :: rest)) :
    ((((first :: rest).zip rest).filterMap fun pair => gapBetween p pair.1 pair.2).map
        CandleGap.missingBars).sum
      = gridIndex p (lastBar first rest) - gridIndex p first - rest.length := by
  have hstep : (0 : ℚ) < p := by exact_mod_cast hp
  induction rest generalizing first with
  | nil => simp [lastBar]
  | cons second rest ih =>
    have htail : GridSeries p (second :: rest) :=
      ⟨(List.pairwise_cons.mp h.sorted).2, fun c hc => h.aligned c (List.mem_cons_of_mem _ hc)⟩
    have hlast : lastBar first (second :: rest) = lastBar second rest := by
      unfold lastBar
      rw [List.getLast?_cons]
      rfl
    have hlt : gridIndex p first < gridIndex p second :=
      (List.pairwise_cons.mp (h.index_lt hstep)).1 second List.mem_cons_self
    have hgap := gapBetween_missing hp (h.openedAt_eq hstep List.mem_cons_self)
      (htail.openedAt_eq hstep List.mem_cons_self) hlt
    have hsum := ih htail
    rw [List.zip_cons_cons, List.filterMap_cons, hlast, List.length_cons]
    cases hfound : gapBetween p first second with
    | none =>
      rw [hfound] at hgap
      dsimp only [Option.elim_none] at hgap ⊢
      rw [hsum]
      push_cast
      omega
    | some gap =>
      rw [hfound] at hgap
      dsimp only [Option.elim_some] at hgap ⊢
      rw [List.map_cons, List.sum_cons, hsum, hgap]
      push_cast
      omega

theorem detectGaps_count {p : ℕ} (hp : 0 < p) {interval : String}
    (hinterval : intervalToSeconds interval = .ok (p : ℚ)) (h : GridSeries p candles) :
    ∃ gaps, detectGaps candles interval = .ok gaps ∧
      ∀ first ∈ candles.head?, ∀ last ∈ candles.getLast?,
        (candles.length + (gaps.map CandleGap.missingBars).sum : ℚ)
          = (last.openedAt - first.openedAt) / p + 1 := by
  have hstep : (0 : ℚ) < p := by exact_mod_cast hp
  unfold detectGaps
  rw [hinterval]
  cases candles with
  | nil => exact ⟨[], rfl, fun first hfirst => nomatch hfirst⟩
  | cons first rest =>
    have hends : ∀ last ∈ (first :: rest).getLast?, last = lastBar first rest := by
      intro last hlast
      rw [List.getLast?_cons] at hlast
      exact (Option.some.inj hlast).symm
    have hcells : ((lastBar first rest).openedAt - first.openedAt) / (p : ℚ)
        = ((gridIndex p (lastBar first rest) - gridIndex p first : ℤ) : ℚ) := by
      rw [h.openedAt_eq hstep (lastBar_mem first rest), h.openedAt_eq hstep List.mem_cons_self,
        gridIndex_of_eq hstep (h.openedAt_eq hstep (lastBar_mem first rest)),
        gridIndex_of_eq hstep (h.openedAt_eq hstep List.mem_cons_self)]
      push_cast
      field_simp
    have hsum := sum_gaps hp h
    by_cases hshort : (first :: rest).length < 2
    · rw [if_pos hshort]
      refine ⟨[], rfl, fun f hf last hlast => ?_⟩
      obtain rfl := Option.some.inj hf
      have hrest : rest = [] := List.eq_nil_of_length_eq_zero (by
        rw [List.length_cons] at hshort
        omega)
      rw [hends last hlast, hrest]
      simp [lastBar]
    · rw [if_neg hshort]
      refine ⟨_, rfl, fun f hf last hlast => ?_⟩
      obtain rfl := Option.some.inj hf
      rw [hends last hlast, hcells]
      have hcount : ((((first :: rest).zip rest).filterMap fun pair =>
          gapBetween p pair.1 pair.2).map CandleGap.missingBars).sum + ((first :: rest).length : ℤ)
          = gridIndex p (lastBar first rest) - gridIndex p first + 1 := by
        rw [hsum, List.length_cons]
        push_cast
        ring
      have hcast := congrArg (Int.cast : ℤ → ℚ) hcount
      push_cast at hcast ⊢
      rw [← hcast, add_comm]
      rfl

/-- **Rolling up composes and invents nothing.** A series rolled up in two steps is the series
rolled up at once; a bar is emitted if and only if all its parts are present, and is made of
them; and the bars and the missing bars of a series fill the cells between its ends. -/
theorem rollup_composes (a b c : String) (sa sb sc : ℚ) (m n : ℕ)
    (ha : intervalToSeconds a = .ok sa) (hb : intervalToSeconds b = .ok sb)
    (hc : intervalToSeconds c = .ok sc) (hm : 2 ≤ m) (hn : 2 ≤ n) (hsb : sb = m * sa)
    (hsc : sc = n * sb) (candles : List Candle) (h : GridSeries sa candles) :
    (∃ mid long, aggregate candles a b = .ok mid ∧ aggregate mid b c = .ok long ∧
      aggregate candles a c = .ok long ∧ RollsUp sa m b candles mid) ∧
    ∃ gaps, detectGaps candles a = .ok gaps ∧
      ∀ first ∈ candles.head?, ∀ last ∈ candles.getLast?,
        (candles.length + (gaps.map CandleGap.missingBars).sum : ℚ)
          = (last.openedAt - first.openedAt) / sa + 1 := by
  obtain ⟨p, hp, rfl⟩ := intervalToSeconds_pos ha
  have hmid : sb = ((m * p : ℕ) : ℚ) := by
    rw [hsb]
    push_cast
    ring
  have hlong : sc = ((n * (m * p) : ℕ) : ℚ) := by
    rw [hsc, hmid]
    push_cast
    ring
  have hlong' : ((n * (m * p) : ℕ) : ℚ) = ((n * m * p : ℕ) : ℚ) := by
    push_cast
    ring
  rw [hmid] at hb
  rw [hlong] at hc
  have hpos : 0 < m := by omega
  refine ⟨⟨_, _, aggregate_eq hp hm ha hb candles,
    aggregate_eq (Nat.mul_pos hpos hp) hn hb hc _, ?_, rollBuckets_rollsUp hp hpos h b⟩,
    detectGaps_count hp ha h⟩
  rw [rollBuckets_rollBuckets hp hpos (by omega) h]
  exact aggregate_eq hp (by nlinarith) ha (hlong' ▸ hc) candles

/-! ## Duplicates -/

theorem mem_foldl_set {d : Dict Time Candle} {candles : List Candle}
    (h : ∀ t c, d.get? t = some c → c.openedAt = t) :
    ∀ t c, (candles.foldl (fun d c => d.set c.openedAt c) d).get? t = some c → c.openedAt = t := by
  induction candles generalizing d with
  | nil => exact h
  | cons bar rest ih =>
    refine ih fun t c hc => ?_
    rw [Dict.get?_set] at hc
    by_cases ht : t = bar.openedAt
    · rw [if_pos ht] at hc
      rw [← Option.some.inj hc, ht]
    · rw [if_neg ht] at hc
      exact h t c hc

/-- Bars on a grid are a series once sorted and rid of duplicates. -/
theorem dedupeAndSort_sorted (candles : List Candle) :
    (dedupeAndSort candles).Pairwise fun c d => c.openedAt < d.openedAt := by
  unfold dedupeAndSort
  dsimp only
  generalize hd : candles.foldl (fun (d : Dict Time Candle) c => d.set c.openedAt c) .empty = d
  have hat : ∀ t c, d.get? t = some c → c.openedAt = t := by
    rw [← hd]
    exact mem_foldl_set fun t c hc => nomatch hc
  have hnodup : (d.keys.insertionSort fun s t => s ≤ t).Nodup :=
    (List.perm_insertionSort _ _).nodup_iff.mpr d.nodup
  have hle := List.pairwise_insertionSort (fun s t : Time => s ≤ t) d.keys
  have hlt := (hle.and hnodup).imp fun {s t} (hboth : s ≤ t ∧ s ≠ t) =>
    lt_of_le_of_ne hboth.1 hboth.2
  refine hlt.filterMap _ fun s t hst c hc c' hc' => ?_
  rw [hat s c hc, hat t c' hc']
  exact hst

namespace Quarter

theorem bar_high : max (1 : ℚ) 1 ≤ 1 := le_of_eq (max_self 1)

theorem bar_low : (1 : ℚ) ≤ min 1 1 := le_of_eq (min_self 1).symm

/-- A flat bar of a minute. -/
def bar (openedAt : Time) : Candle where
  symbol := "BTC/USD"
  interval := "1m"
  openedAt := openedAt
  openPrice := 1
  high := 1
  low := 1
  close := 1
  volume := 1
  open_pos := unit_pos
  high_pos := unit_pos
  low_pos := unit_pos
  close_pos := unit_pos
  volume_nonneg := unit_nonneg
  high_contains := bar_high
  low_contains := bar_low

/-- Four minutes. -/
def minutes : List Candle := [bar 0, bar 60, bar 120, bar 180]

theorem series : GridSeries 60 minutes where
  sorted := by decide +kernel
  aligned c hc := by
    have hbars : ∀ c ∈ minutes, c.openedAt = (truncate (c.openedAt / 60) : ℚ) * 60 := by
      decide +kernel
    exact ⟨_, hbars c hc⟩

end Quarter

/-- Four minutes, rolled up to two bars of two minutes and to one of four. -/
theorem rollup_composes_quarter :
    ∃ mid long, aggregate Quarter.minutes "1m" "2m" = .ok mid ∧ aggregate mid "2m" "4m" = .ok long ∧
      aggregate Quarter.minutes "1m" "4m" = .ok long := by
  obtain ⟨⟨mid, long, hmid, hlong, honce, -⟩, -⟩ := rollup_composes "1m" "2m" "4m" 60 120 240 2 2
    (by decide +kernel) (by decide +kernel) (by decide +kernel) (le_refl 2) (le_refl 2)
    (by norm_num) (by norm_num) Quarter.minutes Quarter.series
  exact ⟨mid, long, hmid, hlong, honce⟩

end TraderStack
