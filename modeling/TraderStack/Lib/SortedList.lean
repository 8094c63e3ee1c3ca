import Mathlib.Data.List.InsertIdx
import Mathlib.Data.List.Perm.Basic
import Mathlib.Data.List.Sort

/-!
# Sorted lists, searched by bisection

A sorted list as a bag of values: an element goes in at the place a bisection finds, and comes out
of it again. The bisection halves a range of positions; on a sorted list it counts the elements on
one side of the value.

- `bisectLeft_eq_countP`, `bisectRight_eq_countP`: what the two bisections find;
- `perm_insort`, `perm_removeSorted`: insertion and removal, as operations on the bag.
-/

namespace TraderStack.Lib

universe u

/-! ## Bisection -/

/-- Halve the range of positions down to the first one that passes. -/
def firstPassing (p : ℕ → Bool) (low high : ℕ) : ℕ :=
  if low < high then
    if p ((low + high) / 2) then firstPassing p low ((low + high) / 2)
    else firstPassing p ((low + high) / 2 + 1) high
  else low
termination_by high - low

/-- Where the test fails before a position of the range and passes from it on, the bisection finds
that position. -/
theorem firstPassing_eq {p : ℕ → Bool} {low high k : ℕ} (hlow : low ≤ k) (hhigh : k ≤ high)
    (hbefore : ∀ i < k, p i = false) (hfrom : ∀ i, k ≤ i → i < high → p i = true) :
    firstPassing p low high = k := by
  fun_induction firstPassing p low high with
  | case1 low high hlt hpass ih =>
    have hmiddle : k ≤ (low + high) / 2 := by
      by_contra hgt
      rw [hbefore _ (not_le.mp hgt)] at hpass
      exact Bool.false_ne_true hpass
    exact ih hlow hmiddle fun i hi hhi => hfrom i hi (by omega)
  | case2 low high hlt hfail ih =>
    have hmiddle : (low + high) / 2 < k := by
      by_contra hge
      exact hfail (hfrom _ (not_lt.mp hge) (by omega))
    exact ih hmiddle hhigh hfrom
  | case3 low high hstop => omega

variable {α : Type u}

/-- The first position whose element passes, by bisection. -/
def partitionPoint (q : α → Bool) (xs : List α) : ℕ :=
  firstPassing (fun i => xs[i]?.all q) 0 xs.length

variable [LinearOrder α] {xs : List α} {x : α}

/-- Does the test pass on everything above an element it passes on? -/
def UpClosed (q : α → Bool) : Prop :=
  ∀ ⦃a b⦄, a ≤ b → q a = true → q b = true

theorem all_getElem?_iff {q : α → Bool} (hq : UpClosed q) (h : xs.Pairwise (· ≤ ·)) {i : ℕ}
    (hi : i < xs.length) : xs[i]?.all q = true ↔ xs.countP (fun a => !q a) ≤ i := by
  induction xs generalizing i with
  | nil => exact absurd hi (Nat.not_lt_zero i)
  | cons a xs ih =>
    obtain ⟨ha, hxs⟩ := List.pairwise_cons.mp h
    by_cases hpass : q a = true
    · -- Once the head passes, everything does.
      have hall : ∀ b ∈ a :: xs, q b = true := fun b hb => by
        rcases List.mem_cons.mp hb with rfl | hb
        · exact hpass
        · exact hq (ha b hb) hpass
      have hnone : (a :: xs).countP (fun b => !q b) = 0 :=
        List.countP_eq_zero.mpr fun b hb => by simp [hall b hb]
      rw [hnone, List.getElem?_eq_getElem hi]
      exact iff_of_true (hall _ (List.getElem_mem hi)) (Nat.zero_le i)
    · rw [List.countP_cons_of_pos (by simp [hpass])]
      cases i with
      | zero => simp [hpass]
      | succ i =>
        rw [List.getElem?_cons_succ, ih hxs (Nat.lt_of_succ_lt_succ hi), Nat.succ_le_succ_iff]

theorem partitionPoint_eq {q : α → Bool} (hq : UpClosed q) (h : xs.Pairwise (· ≤ ·)) :
    partitionPoint q xs = xs.countP (fun a => !q a) := by
  have hle : xs.countP (fun a => !q a) ≤ xs.length := List.countP_le_length
  refine firstPassing_eq (Nat.zero_le _) hle (fun i hi => ?_) fun i hi hlt => ?_
  · rw [← Bool.not_eq_true, all_getElem?_iff hq h (hi.trans_le hle)]
    exact not_le.mpr hi
  · exact (all_getElem?_iff hq h hlt).mpr hi

/-- `bisect.bisect_left`. -/
def bisectLeft (xs : List α) (x : α) : ℕ := partitionPoint (fun a => decide (x ≤ a)) xs

/-- `bisect.bisect_right`. -/
def bisectRight (xs : List α) (x : α) : ℕ := partitionPoint (fun a => decide (x < a)) xs

theorem bisectLeft_eq_countP (h : xs.Pairwise (· ≤ ·)) (x : α) :
    bisectLeft xs x = xs.countP (fun a => a < x) := by
  have hup : UpClosed fun a => decide (x ≤ a) := fun a b hab ha =>
    decide_eq_true ((of_decide_eq_true ha).trans hab)
  rw [bisectLeft, partitionPoint_eq hup h]
  exact List.countP_congr fun a _ => by simp

/-- The values below one are those before its place. -/
theorem getElem_lt_iff (h : xs.Pairwise (· ≤ ·)) {i : ℕ} (hi : i < xs.length) :
    xs[i] < x ↔ i < bisectLeft xs x := by
  have hup : UpClosed fun a => decide (x ≤ a) := fun a b hab ha =>
    decide_eq_true ((of_decide_eq_true ha).trans hab)
  have hiff := all_getElem?_iff hup h hi
  rw [List.getElem?_eq_getElem hi, Option.all_some, decide_eq_true_iff] at hiff
  rw [bisectLeft, partitionPoint_eq hup h, ← not_le, hiff, not_le]

theorem bisectLeft_le_length (h : xs.Pairwise (· ≤ ·)) (x : α) : bisectLeft xs x ≤ xs.length := by
  rw [bisectLeft_eq_countP h]
  exact List.countP_le_length

theorem bisectRight_eq_countP (h : xs.Pairwise (· ≤ ·)) (x : α) :
    bisectRight xs x = xs.countP (fun a => a ≤ x) := by
  have hup : UpClosed fun a => decide (x < a) := fun a b hab ha =>
    decide_eq_true ((of_decide_eq_true ha).trans_le hab)
  rw [bisectRight, partitionPoint_eq hup h]
  exact List.countP_congr fun a _ => by simp

/-! ## Insertion and removal -/

/-- `bisect.insort`. -/
def insort (xs : List α) (x : α) : List α := xs.insertIdx (bisectRight xs x) x

/-- Take a value out of the place where a bisection finds it, if it is there. -/
def removeSorted (xs : List α) (x : α) : List α :=
  if xs[bisectLeft xs x]? = some x then xs.eraseIdx (bisectLeft xs x) else xs

theorem perm_insort (h : xs.Pairwise (· ≤ ·)) (x : α) : (insort xs x).Perm (x :: xs) := by
  refine List.perm_insertIdx x xs ?_
  rw [bisectRight_eq_countP h]
  exact List.countP_le_length

theorem pairwise_insort (h : xs.Pairwise (· ≤ ·)) (x : α) : (insort xs x).Pairwise (· ≤ ·) := by
  unfold insort
  rw [bisectRight_eq_countP h]
  induction xs with
  | nil => exact List.pairwise_singleton _ _
  | cons a xs ih =>
    obtain ⟨ha, hxs⟩ := List.pairwise_cons.mp h
    by_cases hle : a ≤ x
    · rw [List.countP_cons_of_pos (by simp [hle]), List.insertIdx_succ_cons]
      refine List.pairwise_cons.mpr ⟨fun b hb => ?_, ih hxs⟩
      rcases List.eq_or_mem_of_mem_insertIdx hb with rfl | hb
      · exact hle
      · exact ha b hb
    · -- Nothing of the list is at most the value, so it goes in front.
      have hlt : ∀ b ∈ a :: xs, x < b := fun b hb => by
        rcases List.mem_cons.mp hb with rfl | hb
        · exact not_le.mp hle
        · exact (not_le.mp hle).trans_le (ha b hb)
      have hnone : (a :: xs).countP (fun b => b ≤ x) = 0 :=
        List.countP_eq_zero.mpr fun b hb => by simp [hlt b hb]
      rw [hnone, List.insertIdx_zero]
      exact List.pairwise_cons.mpr ⟨fun b hb => (hlt b hb).le, h⟩

/-- A value of a sorted list stands where the bisection looks for it. -/
theorem getElem?_bisectLeft (h : xs.Pairwise (· ≤ ·)) (hx : x ∈ xs) :
    xs[bisectLeft xs x]? = some x := by
  rw [bisectLeft_eq_countP h]
  induction xs with
  | nil => exact absurd hx List.not_mem_nil
  | cons a xs ih =>
    obtain ⟨ha, hxs⟩ := List.pairwise_cons.mp h
    by_cases hlt : a < x
    · have hmem : x ∈ xs := (List.mem_cons.mp hx).resolve_left hlt.ne'
      rw [List.countP_cons_of_pos (by simp [hlt]), List.getElem?_cons_succ]
      exact ih hxs hmem
    · -- The head is at least the value, and at most it wherever the value stands.
      have heq : a = x := by
        rcases List.mem_cons.mp hx with rfl | hmem
        · rfl
        · exact le_antisymm (ha x hmem) (not_lt.mp hlt)
      have hnone : (a :: xs).countP (fun b => b < x) = 0 := by
        refine List.countP_eq_zero.mpr fun b hb => ?_
        rcases List.mem_cons.mp hb with rfl | hb
        · simp [hlt]
        · simp [← heq, ha b hb]
      rw [hnone, List.getElem?_cons_zero, heq]

theorem perm_removeSorted (h : xs.Pairwise (· ≤ ·)) (hx : x ∈ xs) :
    (x :: removeSorted xs x).Perm xs := by
  have hat := getElem?_bisectLeft h hx
  obtain ⟨hlt, heq⟩ := List.getElem?_eq_some_iff.mp hat
  rw [removeSorted, if_pos hat]
  nth_rewrite 1 [← heq]
  exact List.getElem_cons_eraseIdx_perm hlt

theorem pairwise_removeSorted (h : xs.Pairwise (· ≤ ·)) (x : α) :
    (removeSorted xs x).Pairwise (· ≤ ·) := by
  unfold removeSorted
  split
  · exact h.sublist (List.eraseIdx_sublist _ _)
  · exact h

end TraderStack.Lib
