import TraderStack.Portfolio.BookTheory

/-!
# The daily loss and the day's open

`snapshot` rolls the daily anchor before it reads it, so the loss it shows is
measured from the first observation of the UTC day. Here that baseline is said of
the history alone, without the anchor (`dayBaseline`), and the anchor is shown to
carry it along every run whose snapshots come in time order.

- `baseline_carried`: the anchor and its date after a history;
- `records_filter_restart`: a run shows the same snapshots without its restarts;
- `daily_loss_from_open`: what a snapshot's daily PnL is.
-/

namespace TraderStack

open Lib

namespace PortfolioBook

/-! ## Observations -/

/-- The moments a history was observed at. -/
def snapshotTimes : List BookOp → List Time
  | [] => []
  | .snapshot now :: ops => now :: snapshotTimes ops
  | .fill .. :: ops => snapshotTimes ops
  | .mark .. :: ops => snapshotTimes ops
  | .restart :: ops => snapshotTimes ops

/-- The UTC days a history was observed on. -/
def observedDays (ops : List BookOp) : List ℤ := (snapshotTimes ops).map utcDate

/-- The NAV the book has at the first snapshot of a day. -/
def openingNav (day : ℤ) : PortfolioBook → List BookOp → Option ℚ
  | _, [] => none
  | b, op :: ops =>
    match op with
    | .snapshot now =>
      if utcDate now = day then some b.navUsd else openingNav day (b.step (.snapshot now)) ops
    | op => openingNav day (b.step op) ops

/-- What a day's loss is measured from: on the first observed day the NAV at
construction, on any other the NAV at its first snapshot. -/
def dayBaseline (b₀ : PortfolioBook) (ops : List BookOp) (day : ℤ) : Option ℚ :=
  if (observedDays ops).head? = some day then some b₀.navUsd else openingNav day b₀ ops

/-- The results of the snapshots of a run. -/
def records : PortfolioBook → List BookOp → List (Except BookError PortfolioSnapshot)
  | _, [] => []
  | b, op :: ops =>
    match op with
    | .snapshot now => (b.snapshot now).1 :: records (b.step (.snapshot now)) ops
    | op => records (b.step op) ops

@[simp] theorem snapshotTimes_snapshot (now : Time) (ops : List BookOp) :
    snapshotTimes (.snapshot now :: ops) = now :: snapshotTimes ops := rfl

theorem snapshotTimes_append (ops rest : List BookOp) :
    snapshotTimes (ops ++ rest) = snapshotTimes ops ++ snapshotTimes rest := by
  induction ops with
  | nil => rfl
  | cons op ops ih =>
    cases op with
    | snapshot now => exact congrArg (now :: ·) ih
    | fill => exact ih
    | mark => exact ih
    | restart => exact ih

theorem observedDays_append (ops rest : List BookOp) :
    observedDays (ops ++ rest) = observedDays ops ++ observedDays rest := by
  rw [observedDays, snapshotTimes_append, List.map_append]
  rfl

theorem openingNav_append (day : ℤ) (b : PortfolioBook) (ops rest : List BookOp) :
    openingNav day b (ops ++ rest)
      = (openingNav day b ops).or (openingNav day (run step b ops) rest) := by
  induction ops generalizing b with
  | nil => rfl
  | cons op ops ih =>
    cases op with
    | snapshot now =>
      show (if utcDate now = day then _ else _) = Option.or (if utcDate now = day then _ else _) _
      split
      · rfl
      · exact ih _
    | fill => exact ih _
    | mark => exact ih _
    | restart => exact ih _

/-- A day has an opening exactly when it was observed. -/
theorem openingNav_eq_none_iff (day : ℤ) (b : PortfolioBook) (ops : List BookOp) :
    openingNav day b ops = none ↔ day ∉ observedDays ops := by
  induction ops generalizing b with
  | nil => exact ⟨fun _ h => (List.not_mem_nil h).elim, fun _ => rfl⟩
  | cons op ops ih =>
    cases op with
    | snapshot now =>
      show (if utcDate now = day then some b.navUsd else _) = none ↔ day ∉ utcDate now :: _
      split
      · rename_i hday
        rw [hday]
        exact ⟨fun h => (Option.some_ne_none _ h).elim, fun h => (h List.mem_cons_self).elim⟩
      · rename_i hday
        rw [ih, List.mem_cons, not_or]
        exact ⟨fun h => ⟨fun heq => hday heq.symm, h⟩, fun h => h.2⟩
    | fill => exact ih _
    | mark => exact ih _
    | restart => exact ih _

/-! ## The anchor -/

variable {b₀ b : PortfolioBook}

/-- The anchor is moved by snapshots alone. -/
theorem anchor_step (hkeys : UpperKeyed b) (op : BookOp) (hop : ∀ now, op ≠ .snapshot now) :
    (b.step op).dayStartNavUsd = b.dayStartNavUsd ∧ (b.step op).dayStartDate = b.dayStartDate := by
  cases op with
  | fill asset side quantity price fee now strategyId =>
    rcases h : b.applyFill asset side quantity price fee now strategyId with ⟨r, b'⟩
    rw [step, h]
    rcases applyFill_cases h with ⟨e, -, rfl | rfl⟩ | ⟨hq, hp, hf, -, -, hfill⟩ |
      ⟨hs, hf, -, -, -, -, hfill⟩
    · exact ⟨rfl, rfl⟩
    · exact ⟨rfl, rfl⟩
    · exact ⟨hfill.dayStartNav, hfill.dayStartDate⟩
    · exact ⟨hfill.dayStartNav, hfill.dayStartDate⟩
  | mark asset price =>
    rcases mark_cases b asset price with ⟨h, -⟩ | ⟨hp, h⟩
    · simp only [step, h, and_self]
    · simp only [step, h]
      exact ⟨rfl, rfl⟩
  | snapshot now => exact absurd rfl (hop now)
  | restart =>
    rw [step_restart hkeys]
    exact ⟨rfl, rfl⟩

/-- After a history the anchor is the baseline of the last observed day; before the
first observation it is the NAV at construction, without a day. -/
structure Anchored (b₀ : PortfolioBook) (ops : List BookOp) (b : PortfolioBook) : Prop where
  keyed : UpperKeyed b
  date : b.dayStartDate = (observedDays ops).getLast?
  unobserved : observedDays ops = [] → b.dayStartNavUsd = b₀.navUsd
  anchor : ∀ day, b.dayStartDate = some day → dayBaseline b₀ ops day = some b.dayStartNavUsd

/-- What is no snapshot observes nothing. -/
theorem observedDays_concat (ops : List BookOp) (op : BookOp) (hop : ∀ now, op ≠ .snapshot now) :
    observedDays (ops ++ [op]) = observedDays ops := by
  rw [observedDays_append]
  cases op with
  | snapshot now => exact absurd rfl (hop now)
  | fill => exact List.append_nil _
  | mark => exact List.append_nil _
  | restart => exact List.append_nil _

/-- It leaves every baseline. -/
theorem dayBaseline_concat (b₀ : PortfolioBook) (ops : List BookOp) (op : BookOp)
    (hop : ∀ now, op ≠ .snapshot now) (day : ℤ) :
    dayBaseline b₀ (ops ++ [op]) day = dayBaseline b₀ ops day := by
  have hopening : openingNav day (run step b₀ ops) [op] = none := by
    rw [openingNav_eq_none_iff]
    have hnone := observedDays_concat [] op hop
    rw [List.nil_append] at hnone
    rw [hnone]
    exact List.not_mem_nil
  rw [dayBaseline, dayBaseline, observedDays_concat ops op hop, openingNav_append, hopening,
    Option.or_none]

/-- A baseline that is there stays. -/
theorem dayBaseline_append {ops : List BookOp} {day : ℤ} {nav : ℚ}
    (h : dayBaseline b₀ ops day = some nav) (hobserved : observedDays ops ≠ [])
    (rest : List BookOp) : dayBaseline b₀ (ops ++ rest) day = some nav := by
  unfold dayBaseline at h ⊢
  have hhead : (observedDays (ops ++ rest)).head? = (observedDays ops).head? := by
    rw [observedDays_append]
    cases hdays : observedDays ops with
    | nil => exact absurd hdays hobserved
    | cons first days => rfl
  rw [hhead]
  split
  · rename_i hfirst
    rw [if_pos hfirst] at h
    exact h
  · rename_i hfirst
    rw [if_neg hfirst] at h
    rw [openingNav_append, h, Option.some_or]

/-- A day later than every observed one opens at the NAV it is first seen with. -/
theorem dayBaseline_opening {ops : List BookOp} {now : Time} (hobserved : observedDays ops ≠ [])
    (hnew : utcDate now ∉ observedDays ops) :
    dayBaseline b₀ (ops ++ [.snapshot now]) (utcDate now) = some (run step b₀ ops).navUsd := by
  have hhead : (observedDays (ops ++ [.snapshot now])).head? ≠ some (utcDate now) := by
    rw [observedDays_append]
    cases hdays : observedDays ops with
    | nil => exact absurd hdays hobserved
    | cons first days =>
      rw [hdays] at hnew
      intro h
      rw [List.cons_append, List.head?_cons, Option.some.injEq] at h
      exact hnew (h ▸ List.mem_cons_self)
  have hopening : openingNav (utcDate now) (run step b₀ ops) [.snapshot now]
      = some (run step b₀ ops).navUsd := if_pos rfl
  rw [dayBaseline, if_neg hhead, openingNav_append,
    (openingNav_eq_none_iff (utcDate now) b₀ ops).mpr hnew, Option.none_or, hopening]

theorem utcDate_mono {s t : Time} (h : s ≤ t) : utcDate s ≤ utcDate t :=
  Int.floor_mono (div_le_div_of_nonneg_right h (by norm_num))

/-- In time order a new day is later than every observed one. -/
theorem not_mem_observedDays {ops : List BookOp} {now : Time} {day : ℤ}
    (hsorted : (snapshotTimes (ops ++ [.snapshot now])).Pairwise (· ≤ ·))
    (hlast : (observedDays ops).getLast? = some day) (hday : day ≠ utcDate now) :
    utcDate now ∉ observedDays ops := by
  rw [snapshotTimes_append, List.pairwise_append] at hsorted
  obtain ⟨hsorted, -, hbefore⟩ := hsorted
  obtain ⟨times, last, htimes⟩ : ∃ times last, snapshotTimes ops = times ++ [last] := by
    rcases List.eq_nil_or_concat (snapshotTimes ops) with hnil | ⟨times, last, h⟩
    · rw [observedDays, hnil] at hlast
      cases hlast
    · exact ⟨times, last, by rw [h, List.concat_eq_append]⟩
  have hlastday : utcDate last = day := by
    rw [observedDays, htimes, List.map_append, List.map_singleton, List.getLast?_concat,
      Option.some.injEq] at hlast
    exact hlast
  have hle : utcDate last ≤ utcDate now :=
    utcDate_mono (hbefore last (by simp [htimes]) now (by simp))
  intro hmem
  obtain ⟨t, ht, htday⟩ := List.mem_map.mp hmem
  -- every observation is at most the last one, so its day is too
  have htlast : utcDate t ≤ utcDate last := by
    rw [htimes] at ht hsorted
    rcases List.mem_append.mp ht with ht | ht
    · exact utcDate_mono ((List.pairwise_append.mp hsorted).2.2 t ht last (by simp))
    · rw [List.mem_singleton.mp ht]
  omega

theorem anchored_fresh (nav : ℚ) (h : 0 < nav) :
    Anchored (fresh nav h) [] (fresh nav h) where
  keyed := upperKeyed_fresh nav h
  date := rfl
  unobserved := fun _ => by simp [fresh, navUsd]
  anchor := fun day hday => by cases hday

theorem dayStartDate_rollDay (b : PortfolioBook) (now : Time) :
    (b.rollDay now).2.dayStartDate = some (utcDate now) := by
  unfold rollDay
  cases hdate : b.dayStartDate with
  | none => rfl
  | some day =>
    dsimp only
    split
    · rename_i hday
      rw [hdate, hday]
    · rfl

/-- Rolling re-anchors a book that was dated another day. -/
theorem dayStartNav_rollDay (b : PortfolioBook) (now : Time) :
    (b.rollDay now).2.dayStartNavUsd
      = if ∃ day, b.dayStartDate = some day ∧ day ≠ utcDate now then b.navUsd
        else b.dayStartNavUsd := by
  unfold rollDay
  cases hdate : b.dayStartDate with
  | none => simp
  | some day =>
    dsimp only
    by_cases hday : day = utcDate now
    · simp [hday]
    · simp [hday]

/-- **A snapshot** carries the anchor over: it keeps it within a day and takes the
day's first NAV on a new one. -/
theorem Anchored.snapshot {ops : List BookOp} (h : Anchored b₀ ops (run step b₀ ops)) {now : Time}
    (hsorted : (snapshotTimes (ops ++ [.snapshot now])).Pairwise (· ≤ ·)) :
    Anchored b₀ (ops ++ [.snapshot now]) ((run step b₀ ops).step (.snapshot now)) := by
  have hdays : observedDays (ops ++ [.snapshot now]) = observedDays ops ++ [utcDate now] :=
    observedDays_append ops _
  have hrolled : (run step b₀ ops).step (.snapshot now) = ((run step b₀ ops).rollDay now).2 := by
    rcases hsnapshot : (run step b₀ ops).snapshot now with ⟨r, b'⟩
    rw [step, hsnapshot]
    exact (snapshot_cases hsnapshot).1
  have hdate : ((run step b₀ ops).step (.snapshot now)).dayStartDate = some (utcDate now) := by
    rw [hrolled, dayStartDate_rollDay]
  refine ⟨upperKeyed_step _ _ h.keyed, ?_, fun hnil => ?_, fun day hday => ?_⟩
  · rw [hdays, List.getLast?_concat, hdate]
  · rw [hdays] at hnil
    exact absurd hnil (List.append_ne_nil_of_right_ne_nil _ (List.cons_ne_nil _ _))
  cases hdate.symm.trans hday
  rw [hrolled, dayStartNav_rollDay]
  cases hlast : (run step b₀ ops).dayStartDate with
  | none =>
    -- the first observation dates the anchor of the construction
    have hunobserved : observedDays ops = [] := by
      have hdated := h.date
      rw [hlast, eq_comm, List.getLast?_eq_none_iff] at hdated
      exact hdated
    rw [if_neg (by simp), dayBaseline, hdays, hunobserved, h.unobserved hunobserved]
    exact if_pos rfl
  | some day =>
    have hdated : (observedDays ops).getLast? = some day := h.date.symm.trans hlast
    have hobserved : observedDays ops ≠ [] := by
      intro hnil
      rw [hnil] at hdated
      cases hdated
    by_cases hsame : day = utcDate now
    · subst hsame
      rw [if_neg (by simp)]
      exact dayBaseline_append (h.anchor _ hlast) hobserved _
    · rw [if_pos ⟨day, rfl, hsame⟩]
      exact dayBaseline_opening hobserved (not_mem_observedDays hsorted hdated hsame)

/-- **The anchor carries the baseline** along every run whose snapshots come in
time order. -/
theorem baseline_carried (nav : ℚ) (h : 0 < nav) (ops : List BookOp)
    (hsorted : (snapshotTimes ops).Pairwise (· ≤ ·)) :
    Anchored (fresh nav h) ops (run step (fresh nav h) ops) := by
  induction ops using List.reverseRecOn with
  | nil => exact anchored_fresh nav h
  | append_singleton ops op ih =>
    have hbefore : (snapshotTimes ops).Pairwise (· ≤ ·) := by
      rw [snapshotTimes_append] at hsorted
      exact (List.pairwise_append.mp hsorted).1
    have hanchored := ih hbefore
    rw [run_append, run_cons, run_nil]
    by_cases hop : ∃ now, op = .snapshot now
    · obtain ⟨now, rfl⟩ := hop
      exact hanchored.snapshot hsorted
    · have hop : ∀ now, op ≠ .snapshot now := fun now heq => hop ⟨now, heq⟩
      obtain ⟨hnav, hdate⟩ := anchor_step hanchored.keyed op hop
      refine ⟨upperKeyed_step _ op hanchored.keyed, ?_, ?_, ?_⟩
      · rw [hdate, observedDays_concat ops op hop]
        exact hanchored.date
      · rw [hnav, observedDays_concat ops op hop]
        exact hanchored.unobserved
      · intro day hday
        rw [hnav, dayBaseline_concat _ ops op hop]
        exact hanchored.anchor day (hdate ▸ hday)

/-! ## Restarts -/

/-- Whether an operation is no restart. -/
def isNoRestart : BookOp → Bool
  | .restart => false
  | _ => true

/-- **A run shows the same snapshots without its restarts.** -/
theorem records_filter_restart (hkeys : UpperKeyed b) (ops : List BookOp) :
    records b ops = records b (ops.filter isNoRestart) := by
  induction ops generalizing b with
  | nil => rfl
  | cons op ops ih =>
    cases op with
    | snapshot now => exact congrArg (_ :: ·) (ih (upperKeyed_step b _ hkeys))
    | fill => exact ih (upperKeyed_step b _ hkeys)
    | mark => exact ih (upperKeyed_step b _ hkeys)
    | restart =>
      have hrestart : records b (.restart :: ops) = records b ops := by
        show records (b.step .restart) ops = _
        rw [step_restart hkeys]
      rw [hrestart, ih hkeys]
      rfl

/-- **The daily loss is measured from the day's open.** Along every run from a
fresh book whose snapshots come in time order, a snapshot's daily PnL is its NAV
less the NAV at the first snapshot of the same UTC day, and on the first observed
day less the NAV at construction; and the run without its restarts shows the same
snapshots. -/
theorem daily_loss_from_open (nav : ℚ) (h : 0 < nav) (ops : List BookOp)
    (hsorted : (snapshotTimes ops).Pairwise (· ≤ ·)) :
    (∀ pre now post s, ops = pre ++ .snapshot now :: post →
      ((run step (fresh nav h) pre).snapshot now).1 = .ok s →
      ∃ open_, dayBaseline (fresh nav h) (pre ++ [.snapshot now]) (utcDate now) = some open_ ∧
        s.dailyPnlUsd = s.navUsd - open_) ∧
    records (fresh nav h) ops = records (fresh nav h) (ops.filter isNoRestart) := by
  refine ⟨?_, records_filter_restart (upperKeyed_fresh nav h) ops⟩
  rintro pre now post s rfl hshown
  have hsplit : pre ++ .snapshot now :: post = pre ++ [.snapshot now] ++ post := by simp
  have hbefore : (snapshotTimes (pre ++ [.snapshot now])).Pairwise (· ≤ ·) := by
    rw [hsplit, snapshotTimes_append] at hsorted
    exact (List.pairwise_append.mp hsorted).1
  have hanchored := baseline_carried nav h _ hbefore
  rw [run_append, run_cons, run_nil] at hanchored
  rcases hsnapshot : (run step (fresh nav h) pre).snapshot now with ⟨r, b'⟩
  have hbook : (run step (fresh nav h) pre).step (.snapshot now) = b' := by rw [step, hsnapshot]
  rw [hbook] at hanchored
  rw [hsnapshot] at hshown
  obtain ⟨-, ⟨herror, -⟩ | ⟨s', hs, hnav, -, -, hpnl, -⟩⟩ := snapshot_cases hsnapshot
  · cases hshown.symm.trans herror
  cases hshown.symm.trans hs
  have hdate : b'.dayStartDate = some (utcDate now) := by
    rw [hanchored.date, observedDays_append]
    exact List.getLast?_concat
  refine ⟨b'.dayStartNavUsd, hanchored.anchor _ hdate, ?_⟩
  rw [hpnl, hnav]
  rfl

/-- Two days: the second opens with the gain of the night. -/
def overnight : List BookOp :=
  [.snapshot 0, .fill "BTC" .buy 1 100 0 10 none, .restart, .mark "BTC" 150, .snapshot 86400,
    .mark "BTC" 120, .restart, .snapshot 86500]

theorem daily_loss_from_open_overnight :
    (∀ pre now post s, overnight = pre ++ .snapshot now :: post →
      ((run step (fresh 10000 (by decide)) pre).snapshot now).1 = .ok s →
      ∃ open_, dayBaseline (fresh 10000 (by decide)) (pre ++ [.snapshot now]) (utcDate now)
          = some open_ ∧ s.dailyPnlUsd = s.navUsd - open_) ∧
    records (fresh 10000 (by decide)) overnight
      = records (fresh 10000 (by decide)) (overnight.filter isNoRestart) :=
  daily_loss_from_open 10000 (by decide) overnight (by decide +kernel)

end PortfolioBook

end TraderStack
