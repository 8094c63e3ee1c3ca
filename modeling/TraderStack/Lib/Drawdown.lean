import Mathlib.Algebra.Order.Field.Basic
import Mathlib.Algebra.Order.Group.MinMax
import Mathlib.Data.List.Induction
import Mathlib.Order.Bounds.Basic
import Mathlib.Tactic.Linarith

/-!
# Drawdown of a path

A watermark follows a path of values: the highest so far, and the deepest decline
below it. On a path of positive values the decline is the greatest from any value
to any later one (`isGreatest_worst`). Of two paths where the second always moves by
the smaller factor, the second is the deeper (`Behind.observe`).

A running total has falls instead of declines: what a run of its steps took off it.
One pass with a peak finds the greatest (`RunningTotal.isGreatest_worst`).
-/

namespace TraderStack.Lib

variable {K : Type*} [Field K] [LinearOrder K]

/-- The highest value of a path so far, and the deepest decline below it. -/
@[ext]
structure Watermark (K : Type*) where
  peak : K
  worst : K

namespace Watermark

/-- At the start of a path. -/
def start (x : K) : Watermark K := ⟨x, 0⟩

/-- After one more value. -/
def observe (w : Watermark K) (x : K) : Watermark K where
  peak := max w.peak x
  worst := max w.worst (1 - x / max w.peak x)

/-- After the values of a path. -/
def along (x : K) (xs : List K) : Watermark K := xs.foldl observe (start x)

@[simp] theorem along_nil (x : K) : along x [] = start x := rfl

theorem along_concat (x : K) (xs : List K) (y : K) :
    along x (xs ++ [y]) = (along x xs).observe y := by
  rw [along, List.foldl_append]
  rfl

theorem le_worst_observe (w : Watermark K) (x : K) : w.worst ≤ (w.observe x).worst :=
  le_max_left _ _

/-! ## What a watermark says -/

/-- The declines of a path: from a value to a later one, as a part of the first. -/
def declines (xs : List K) : Set K := { d | d = 0 ∨ ∃ x y, [x, y].Sublist xs ∧ d = 1 - y / x }

omit [Field K] [LinearOrder K] in
theorem pair_sublist_concat {xs : List K} {x y z : K} :
    [x, y].Sublist (xs ++ [z]) ↔ [x, y].Sublist xs ∨ x ∈ xs ∧ y = z := by
  have hrev : [x, y].reverse.Sublist xs.reverse ↔ [x, y].Sublist xs := List.reverse_sublist
  rw [← List.reverse_sublist, List.reverse_append, ← hrev]
  show [y, x].Sublist (z :: xs.reverse) ↔ _
  rw [List.sublist_cons_iff]
  constructor
  · rintro (h | ⟨r, hr, hsub⟩)
    · exact .inl h
    · cases hr
      exact .inr ⟨List.mem_reverse.mp (List.singleton_sublist.mp hsub), rfl⟩
  · rintro (h | ⟨h, rfl⟩)
    · exact .inl h
    · exact .inr ⟨[x], rfl, List.singleton_sublist.mpr (List.mem_reverse.mpr h)⟩

/-- The peak is the highest value. -/
theorem isGreatest_peak (x : K) (xs : List K) :
    IsGreatest { y | y ∈ x :: xs } (along x xs).peak := by
  induction xs using List.reverseRecOn with
  | nil => exact ⟨List.mem_singleton.mpr rfl, fun y hy => (List.mem_singleton.mp hy).le⟩
  | append_singleton xs y ih =>
    rw [along_concat, ← List.cons_append]
    refine ⟨?_, fun z hz => ?_⟩
    · rcases max_choice (along x xs).peak y with h | h
      · show max _ _ ∈ _
        rw [h]
        exact List.mem_append_left _ ih.1
      · show max _ _ ∈ _
        rw [h]
        exact List.mem_append_right _ (List.mem_singleton.mpr rfl)
    · rcases List.mem_append.mp hz with hz | hz
      · exact le_max_of_le_left (ih.2 hz)
      · rw [List.mem_singleton.mp hz]
        exact le_max_right _ _

variable [IsStrictOrderedRing K]

/-- **The worst decline** is the greatest from any value to any later one. -/
theorem isGreatest_worst {x : K} {xs : List K} (hpos : ∀ y ∈ x :: xs, 0 < y) :
    IsGreatest (declines (x :: xs)) (along x xs).worst := by
  induction xs using List.reverseRecOn with
  | nil =>
    refine ⟨.inl rfl, ?_⟩
    rintro d (rfl | ⟨a, b, hab, -⟩)
    · exact le_refl 0
    · have := hab.length_le
      simp at this
  | append_singleton xs z ih =>
    rw [← List.cons_append] at hpos ⊢
    have hbefore := ih fun y hy => hpos y (List.mem_append_left _ hy)
    have hz : 0 < z := hpos z (List.mem_append_right _ (List.mem_singleton.mpr rfl))
    have hpeak := isGreatest_peak x xs
    have hpeak_pos : 0 < (along x xs).peak := hpos _ (List.mem_append_left _ hpeak.1)
    rw [along_concat]
    refine ⟨?_, ?_⟩
    · show max _ _ ∈ _
      rcases max_choice (along x xs).worst (1 - z / max (along x xs).peak z) with h | h
      · rw [h]
        rcases hbefore.1 with h0 | ⟨a, b, hab, hd⟩
        · exact .inl h0
        · exact .inr ⟨a, b, pair_sublist_concat.mpr (.inl hab), hd⟩
      · rw [h]
        rcases max_choice (along x xs).peak z with hmax | hmax
        · rw [hmax]
          exact .inr ⟨_, z, pair_sublist_concat.mpr (.inr ⟨hpeak.1, rfl⟩), rfl⟩
        · rw [hmax, div_self hz.ne', sub_self]
          exact .inl rfl
    · rintro d (rfl | ⟨a, b, hab, rfl⟩)
      · exact le_max_of_le_left (hbefore.2 (.inl rfl))
      · rcases pair_sublist_concat.mp hab with hold | ⟨ha, rfl⟩
        · exact le_max_of_le_left (hbefore.2 (.inr ⟨a, b, hold, rfl⟩))
        · -- the new value, below an old one, is at least as far below the peak
          have ha_pos : 0 < a := hpos a (List.mem_append_left _ ha)
          have hle : a ≤ max (along x xs).peak b := le_max_of_le_left (hpeak.2 ha)
          refine le_max_of_le_right (sub_le_sub_left ?_ 1)
          exact div_le_div_of_nonneg_left hz.le ha_pos hle

/-! ## Two paths -/

/-- A second path, at `y`, is at least as far below its peak as a first one at `x`,
and has been. -/
structure Behind (v w : Watermark K) (x y : K) : Prop where
  peak_pos : 0 < v.peak
  peak_pos' : 0 < w.peak
  depth : y / w.peak ≤ x / v.peak
  worst : v.worst ≤ w.worst

omit [IsStrictOrderedRing K] in
theorem Behind.start {x : K} (hx : 0 < x) : Behind (start x) (start x) x x :=
  ⟨hx, hx, le_refl _, le_refl _⟩

/-- A value, as a part of the peak it may raise. -/
theorem div_max {p x : K} (hp : 0 < p) (hx : 0 < x) : x / max p x = min (x / p) 1 := by
  rcases le_total p x with h | h
  · rw [max_eq_right h, div_self hx.ne', min_eq_right ((one_le_div hp).mpr h)]
  · rw [max_eq_left h, min_eq_left ((div_le_one hp).mpr h)]

/-- **The path that moves by the smaller factor** falls behind, or stays there. -/
theorem Behind.observe {v w : Watermark K} {x y a b : K} (h : Behind v w x y) (hx : 0 < x)
    (hy : 0 < y) (hb : 0 < b) (hab : b ≤ a) :
    Behind (v.observe (x * a)) (w.observe (y * b)) (x * a) (y * b) := by
  have ha : 0 < a := hb.trans_le hab
  have hdepth : y * b / max w.peak (y * b) ≤ x * a / max v.peak (x * a) := by
    rw [div_max h.peak_pos' (mul_pos hy hb), div_max h.peak_pos (mul_pos hx ha)]
    refine min_le_min_right 1 ?_
    calc y * b / w.peak = y / w.peak * b := by rw [mul_div_right_comm]
      _ ≤ x / v.peak * a :=
        mul_le_mul h.depth hab hb.le (div_nonneg hx.le h.peak_pos.le)
      _ = x * a / v.peak := by rw [mul_div_right_comm]
  exact ⟨lt_max_of_lt_left h.peak_pos, lt_max_of_lt_left h.peak_pos', hdepth,
    max_le_max h.worst (sub_le_sub_left hdepth 1)⟩

end Watermark

/-! ## The falls of a running total -/

variable {G : Type*} [AddCommGroup G] [LinearOrder G]

/-- The sum of the steps so far, its peak, and its deepest fall from a peak. -/
structure RunningTotal (G : Type*) where
  total : G
  peak : G
  worst : G

namespace RunningTotal

/-- After one more step. -/
def observe (r : RunningTotal G) (x : G) : RunningTotal G where
  total := r.total + x
  peak := max r.peak (r.total + x)
  worst := max r.worst (max r.peak (r.total + x) - (r.total + x))

/-- After some steps, from nothing. -/
def along (xs : List G) : RunningTotal G := xs.foldl observe ⟨0, 0, 0⟩

theorem along_concat (xs : List G) (x : G) : along (xs ++ [x]) = (along xs).observe x := by
  rw [along, List.foldl_append]
  rfl

/-- What the contiguous runs of some steps, the empty one among them, took off. -/
def falls (xs : List G) : Set G := { d | ∃ steps, steps <:+: xs ∧ d = -steps.sum }

variable [IsOrderedAddMonoid G]

/-- How far the total is below its peak is the greatest of what the last steps took off. -/
theorem isGreatest_below (xs : List G) :
    IsGreatest { d | ∃ steps, steps <:+ xs ∧ d = -steps.sum }
      ((along xs).peak - (along xs).total) := by
  induction xs using List.reverseRecOn with
  | nil =>
    refine ⟨⟨[], List.nil_suffix, by simp [along]⟩, ?_⟩
    rintro d ⟨steps, hsteps, rfl⟩
    rw [List.suffix_nil.mp hsteps]
    simp [along]
  | append_singleton xs x ih =>
    -- a new low is below the old peak; a new peak starts again
    have hbelow : (along (xs ++ [x])).peak - (along (xs ++ [x])).total
        = max ((along xs).peak - (along xs).total - x) 0 := by
      rw [along_concat]
      show max (along xs).peak ((along xs).total + x) - ((along xs).total + x) = _
      rw [← max_sub_sub_right, sub_self, sub_add_eq_sub_sub]
    rw [hbelow]
    constructor
    · rcases max_choice ((along xs).peak - (along xs).total - x) 0 with h | h
      · obtain ⟨steps, hsteps, hd⟩ := ih.1
        refine ⟨steps ++ [x], List.suffix_concat_iff.mpr (.inr ⟨steps, rfl, hsteps⟩), ?_⟩
        rw [h, hd, List.sum_append, List.sum_singleton, neg_add, sub_eq_add_neg]
      · rw [h]
        exact ⟨[], List.nil_suffix, by simp⟩
    · rintro d ⟨steps, hsteps, rfl⟩
      rcases List.suffix_concat_iff.mp hsteps with rfl | ⟨before, rfl, hbefore⟩
      · simp
      · refine le_max_of_le_left ?_
        rw [List.sum_append, List.sum_singleton, neg_add, ← sub_eq_add_neg]
        exact sub_le_sub_right (ih.2 ⟨before, hbefore, rfl⟩) x

/-- **The worst fall** is the greatest over all runs of steps. -/
theorem isGreatest_worst (xs : List G) : IsGreatest (falls xs) (along xs).worst := by
  induction xs using List.reverseRecOn with
  | nil =>
    refine ⟨⟨[], List.nil_infix, by simp [along]⟩, ?_⟩
    rintro d ⟨steps, hsteps, rfl⟩
    rw [List.infix_nil.mp hsteps]
    simp [along]
  | append_singleton xs x ih =>
    have hworst : (along (xs ++ [x])).worst
        = max (along xs).worst ((along (xs ++ [x])).peak - (along (xs ++ [x])).total) := by
      rw [along_concat]
      rfl
    have hbelow := isGreatest_below (xs ++ [x])
    rw [hworst]
    constructor
    · rcases max_choice (along xs).worst
          ((along (xs ++ [x])).peak - (along (xs ++ [x])).total) with h | h
      · obtain ⟨steps, hsteps, hd⟩ := ih.1
        rw [h]
        exact ⟨steps, List.infix_concat_iff.mpr (.inr hsteps), hd⟩
      · obtain ⟨steps, hsteps, hd⟩ := hbelow.1
        rw [h]
        exact ⟨steps, hsteps.isInfix, hd⟩
    · rintro d ⟨steps, hsteps, rfl⟩
      rcases List.infix_concat_iff.mp hsteps with hlast | hbefore
      · exact le_max_of_le_right (hbelow.2 ⟨steps, hlast, rfl⟩)
      · exact le_max_of_le_left (ih.2 ⟨steps, hbefore, rfl⟩)

end RunningTotal

end TraderStack.Lib
