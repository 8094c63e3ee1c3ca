import TraderStack.Portfolio.BookTheory

/-!
# The peak and the true high

The drawdown the risk engine computes is measured from `peak_nav_usd`, which
`apply_fill` raises and `mark` does not. The peak therefore covers the book's
real high exactly as long as no mark lifts the NAV above it
(`MarkWithinPeak`): both directions are proved, over whole runs.

- `navUsd_step_le`: one operation meeting the condition keeps NAV within peak;
- `peakNavUsd_step_le`: no operation lowers the peak;
- `covered_of_along`, `along_of_covered`: the two directions of the result.
-/

namespace TraderStack

open Lib

/-- The drawdown of a snapshot, as the risk engine computes it (risk.py:219). -/
def PortfolioSnapshot.drawdown (s : PortfolioSnapshot) : ℚ := 1 - s.navUsd / s.peakNavUsd

namespace PortfolioBook

/-- A mark does not revalue the book above its recorded peak. -/
def MarkWithinPeak (b : PortfolioBook) : BookOp → Prop
  | .mark asset priceUsd =>
    0 < priceUsd →
      b.navUsd + b.heldQuantity (Text.upper asset)
          * (priceUsd - b.markOf (Text.upper asset) (b.positionOf (Text.upper asset)))
        ≤ b.peakNavUsd
  | _ => True

instance (b : PortfolioBook) : ∀ op, Decidable (b.MarkWithinPeak op)
  | .mark _ _ => by unfold MarkWithinPeak; infer_instance
  | .fill .. => isTrue trivial
  | .snapshot _ => isTrue trivial
  | .restart => isTrue trivial

/-- Every snapshot taken along the run has a peak no lower than its own NAV and
than every NAV the book had before, so its drawdown is no smaller than the
decline from any of them. -/
def HighWaterCovered (b₀ : PortfolioBook) (ops : List BookOp) : Prop :=
  ∀ pre, pre <+: ops → ∀ now s b', (run step b₀ pre).snapshot now = (.ok s, b') →
    s.navUsd ≤ s.peakNavUsd ∧
      ∀ past, past <+: pre →
        (run step b₀ past).navUsd ≤ s.peakNavUsd ∧
          (0 < (run step b₀ past).navUsd →
            1 - s.navUsd / (run step b₀ past).navUsd ≤ s.drawdown)

variable {b : PortfolioBook}

theorem peakNavUsd_step_le (b : PortfolioBook) (op : BookOp) :
    b.peakNavUsd ≤ (b.step op).peakNavUsd := by
  cases op with
  | fill asset side quantity price fee now strategyId =>
    rcases h : b.applyFill asset side quantity price fee now strategyId with ⟨r, b'⟩
    rw [step, h]
    rcases applyFill_cases h with ⟨e, -, rfl | rfl⟩ | ⟨hq, hp, hf, -, -, hfill⟩ |
      ⟨hs, hf, -, -, -, -, hfill⟩
    · exact le_rfl
    · exact le_rfl
    · exact hfill.peak ▸ le_max_left _ _
    · exact hfill.peak ▸ le_max_left _ _
  | mark asset price =>
    rcases mark_cases b asset price with ⟨h, -⟩ | ⟨hp, h⟩
    · simp only [step, h, le_refl]
    · simp only [step, h]
      exact le_rfl
  | snapshot now => exact (sameBook_snapshot b now).peak.ge
  | restart =>
    rw [step, state]
    split
    · rename_i h
      split at h
      · cases h
      · cases h
        exact le_rfl
    · exact le_rfl

theorem peakNavUsd_run_le (b : PortfolioBook) (ops : List BookOp) :
    b.peakNavUsd ≤ (run step b ops).peakNavUsd := by
  have hstep : ∀ (b' : PortfolioBook) (op : BookOp), b.peakNavUsd ≤ b'.peakNavUsd →
      b.peakNavUsd ≤ (step b' op).peakNavUsd := by
    intro b' op h
    exact le_trans h (peakNavUsd_step_le b' op)
  exact run_invariant (I := fun b' : PortfolioBook => b.peakNavUsd ≤ b'.peakNavUsd) hstep b ops
    le_rfl

theorem navUsd_withPosition (b : PortfolioBook) (asset : String) :
    (b.withPosition asset).navUsd = b.navUsd := by
  have hsum : (b.withPosition asset).positions.sum (fun a p => p.quantity * b.markOf a p)
      = b.positions.sum fun a p => p.quantity * b.markOf a p :=
    Dict.sum_setDefault b.positions (by simp)
  exact congrArg (b.cashUsd + ·) hsum

/-- **One operation** whose mark stays within the peak keeps the NAV there. -/
theorem navUsd_step_le (hkeys : UpperKeyed b) (op : BookOp) (hop : b.MarkWithinPeak op)
    (hnav : b.navUsd ≤ b.peakNavUsd) : (b.step op).navUsd ≤ (b.step op).peakNavUsd := by
  cases op with
  | fill asset side quantity price fee now strategyId =>
    rcases h : b.applyFill asset side quantity price fee now strategyId with ⟨r, b'⟩
    rw [step, h]
    rcases applyFill_cases h with ⟨e, -, rfl | rfl⟩ | ⟨hq, hp, hf, -, -, hfill⟩ |
      ⟨hs, hf, -, -, -, -, hfill⟩
    · exact hnav
    · rw [navUsd_withPosition]
      exact hnav
    · exact hfill.peak ▸ le_max_right _ _
    · exact hfill.peak ▸ le_max_right _ _
  | mark asset price =>
    rcases mark_cases b asset price with ⟨h, -⟩ | ⟨hp, h⟩
    · simp only [step, h]
      exact hnav
    · simp only [step, h]
      rw [navUsd_setMark]
      exact hop hp
  | snapshot now =>
    have hsame := sameBook_snapshot b now
    show (b.snapshot now).2.navUsd ≤ (b.snapshot now).2.peakNavUsd
    rw [hsame.navUsd, hsame.peak]
    exact hnav
  | restart =>
    rw [step_restart hkeys]
    exact hnav

theorem navUsd_run_le (hkeys : UpperKeyed b) (ops : List BookOp)
    (hops : Along step MarkWithinPeak b ops) (hnav : b.navUsd ≤ b.peakNavUsd) :
    (run step b ops).navUsd ≤ (run step b ops).peakNavUsd :=
  (run_invariant_along
    (I := fun b' => UpperKeyed b' ∧ b'.navUsd ≤ b'.peakNavUsd)
    (fun b' op hop h => ⟨upperKeyed_step b' op h.1, navUsd_step_le h.1 op hop h.2⟩)
    b ops hops ⟨hkeys, hnav⟩).2

/-- If no mark lifts the NAV above the peak, every snapshot's peak covers the
whole past. -/
theorem covered_of_along (hkeys : UpperKeyed b) (ops : List BookOp)
    (hops : Along step MarkWithinPeak b ops) (hnav : b.navUsd ≤ b.peakNavUsd) :
    HighWaterCovered b ops := by
  rintro pre ⟨post, rfl⟩ now s b' hsnap
  have hpre := ((along_append b pre post).mp hops).1
  have hsame := sameBook_snapshot (run step b pre) now
  obtain ⟨-, ⟨h, -⟩ | ⟨s', h, hs, -, hpeak, -⟩⟩ := snapshot_cases hsnap
  · cases h
  cases h
  rw [hsnap] at hsame
  -- the snapshot shows the NAV and the peak of the book it was taken of
  have hsnav : s.navUsd = (run step b pre).navUsd := hs.trans hsame.navUsd
  have hspeak : s.peakNavUsd = (run step b pre).peakNavUsd := hpeak.trans hsame.peak
  refine ⟨?_, ?_⟩
  · rw [hsnav, hspeak]
    exact navUsd_run_le hkeys pre hpre hnav
  rintro past ⟨rest, rfl⟩
  have hpast : (run step b past).navUsd ≤ s.peakNavUsd := by
    have hle := navUsd_run_le hkeys past ((along_append b past rest).mp hpre).1 hnav
    rw [hspeak, run_append]
    exact hle.trans (peakNavUsd_run_le _ rest)
  refine ⟨hpast, fun hpos => ?_⟩
  have hdiv : s.navUsd / s.peakNavUsd ≤ s.navUsd / (run step b past).navUsd :=
    div_le_div_of_nonneg_left s.nav_pos.le hpos hpast
  unfold PortfolioSnapshot.drawdown
  linarith

/-- A mark above the peak is seen by the very next snapshot. -/
theorem along_of_covered (ops : List BookOp) (h : HighWaterCovered b ops) :
    Along step MarkWithinPeak b ops := by
  rw [along_iff_split]
  rintro pre op post rfl
  cases op with
  | fill => trivial
  | snapshot => trivial
  | restart => trivial
  | mark asset price =>
    intro hp
    by_contra hlt
    rw [not_le] at hlt
    have hstep : run step b (pre ++ [.mark asset price])
        = (run step b pre).setMark (Text.upper asset) price hp := by
      rw [run_append, run_cons, run_nil, step, mark, dif_neg (not_le.mpr hp)]
    have hnav := navUsd_setMark (b := run step b pre) (Text.upper asset) price hp
    rw [← hnav, ← hstep] at hlt
    have hprefix : pre ++ [.mark asset price] <+: pre ++ .mark asset price :: post :=
      ⟨post, by rw [List.append_assoc, List.singleton_append]⟩
    rcases hsnap : (run step b (pre ++ [.mark asset price])).snapshot 0 with ⟨r, b'⟩
    have hsame := sameBook_snapshot (run step b (pre ++ [.mark asset price])) 0
    rw [hsnap] at hsame
    have hpeak : (run step b (pre ++ [.mark asset price])).peakNavUsd
        = (run step b pre).peakNavUsd := by
      rw [hstep]
      rfl
    obtain ⟨-, ⟨-, hle⟩ | ⟨s, rfl, hs, -, hspeak, -⟩⟩ := snapshot_cases hsnap
    · -- the marked NAV is above a positive peak, so the snapshot cannot refuse it
      rw [hsame.navUsd] at hle
      exact absurd (hlt.trans_le hle) (not_lt.mpr (run step b pre).peak_pos.le)
    · have hcov := (h _ hprefix 0 s b' hsnap).1
      rw [hs, hsame.navUsd, hspeak, hsame.peak, hpeak] at hcov
      exact absurd hlt (not_lt.mpr hcov)

/-- **The peak covers the true high exactly when** no mark lifts the NAV above
the recorded peak. -/
theorem highWaterCovered_iff (nav : ℚ) (h : 0 < nav) (ops : List BookOp) :
    HighWaterCovered (fresh nav h) ops ↔ Along step MarkWithinPeak (fresh nav h) ops :=
  ⟨along_of_covered ops, fun hops =>
    covered_of_along (upperKeyed_fresh nav h) ops hops (by simp [fresh, navUsd])⟩

/-- A purchase and a mark at twice its price. -/
def markedUp : List BookOp := [.fill "BTC" .buy 1 100 0 0 none, .mark "BTC" 200]

theorem highWaterCovered_iff_markedUp :
    HighWaterCovered (fresh 10000 (by decide)) markedUp ↔
      Along step MarkWithinPeak (fresh 10000 (by decide)) markedUp :=
  highWaterCovered_iff 10000 (by decide) markedUp

/-- The peak does not cover the high of every run: after `markedUp` the
snapshot shows a NAV of 10100 and a peak of 10000. -/
theorem not_highWaterCovered_markedUp :
    ¬∀ (nav : ℚ) (h : 0 < nav) (ops : List BookOp), HighWaterCovered (fresh nav h) ops := by
  intro hall
  have halong := along_of_covered markedUp (hall 10000 (by decide) markedUp)
  exact absurd halong (by decide +kernel)

end PortfolioBook

end TraderStack
