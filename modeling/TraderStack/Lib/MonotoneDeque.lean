import Mathlib.Data.List.DropRight
import Mathlib.Order.RelClasses

/-!
# Monotone deques

The best value of a sliding window. The deque holds positions: a new one first removes from the
back every position whose value is no better than its own, and the front leaves once it has become
too old. `r x y` says that `y` is at least as good as `x`.

- `Survives.pushBack`, `Survives.popFront`: both steps keep the deque to the positions of the
  window that no later one has beaten;
- `Survives.front_best`: the front is the best of the window.
-/

namespace TraderStack.Lib

universe u

variable {α : Type u} (r : α → α → Prop) (value : ℕ → α)

/-- A new position removes from the back what it beats. -/
def pushBack [DecidableRel r] (queue : List ℕ) (position : ℕ) : List ℕ :=
  queue.rdropWhile (fun i => r (value i) (value position)) ++ [position]

/-- The front leaves once it is at most a limit. -/
def popFront (limit : ℕ) : List ℕ → List ℕ
  | [] => []
  | front :: rest => if front ≤ limit then rest else front :: rest

/-- The queue holds, in order, the positions of `[a, b)` that no later one of it has beaten. -/
structure Survives (a b : ℕ) (queue : List ℕ) : Prop where
  ordered : queue.Pairwise (· < ·)
  mem_iff : ∀ i, i ∈ queue ↔ a ≤ i ∧ i < b ∧ ∀ j, i < j → j < b → ¬ r (value i) (value j)

/-- Where a test that passes on an element passes on all later ones, dropping from the back is
filtering. -/
theorem rdropWhile_eq_filter {β : Type*} {p : β → Bool} {xs : List β}
    (h : xs.Pairwise fun x y => p x = true → p y = true) :
    xs.rdropWhile p = xs.filter fun x => !p x := by
  induction xs using List.reverseRecOn with
  | nil => rfl
  | append_singleton xs x ih =>
    obtain ⟨hxs, -, hlast⟩ := List.pairwise_append.mp h
    rw [List.rdropWhile_concat, List.filter_append]
    by_cases hx : p x = true
    · rw [if_pos hx, ih hxs, List.filter_cons_of_neg (by simp [hx]), List.filter_nil,
        List.append_nil]
    · -- The last element stays, and so does everything before it.
      have hkept : ∀ y ∈ xs, (!p y) = true := fun y hy => by
        rw [Bool.not_eq_true']
        exact Bool.eq_false_iff.mpr fun hpass =>
          hx (hlast y hy x (List.mem_singleton_self x) hpass)
      rw [if_neg hx, List.filter_eq_self.mpr hkept, List.filter_cons_of_pos (by simp [hx]),
        List.filter_nil]

namespace Survives

variable {r value} {a b : ℕ} {queue : List ℕ}

theorem nil (a : ℕ) : Survives r value a a [] where
  ordered := .nil
  mem_iff i := iff_of_false List.not_mem_nil fun h => by omega

theorem popFront (h : Survives r value a b queue) :
    Survives r value (a + 1) b (popFront a queue) := by
  cases queue with
  | nil =>
    refine ⟨.nil, fun i => iff_of_false List.not_mem_nil fun hi => ?_⟩
    exact List.not_mem_nil ((h.mem_iff i).mpr ⟨by omega, hi.2⟩)
  | cons front rest =>
    obtain ⟨hfront, hrest⟩ := List.pairwise_cons.mp h.ordered
    have hle := ((h.mem_iff front).mp List.mem_cons_self).1
    rw [Lib.popFront]
    by_cases hold : front ≤ a
    · -- The front was the oldest position.
      rw [if_pos hold]
      refine ⟨hrest, fun i => ⟨fun hi => ?_, fun hi => ?_⟩⟩
      · have hi' := (h.mem_iff i).mp (List.mem_cons_of_mem _ hi)
        exact ⟨by have := hfront i hi; omega, hi'.2⟩
      · rcases List.mem_cons.mp ((h.mem_iff i).mpr ⟨by omega, hi.2⟩) with rfl | hmem
        · omega
        · exact hmem
    · rw [if_neg hold]
      refine ⟨h.ordered, fun i => ⟨fun hi => ?_, fun hi => ?_⟩⟩
      · have hi' := (h.mem_iff i).mp hi
        refine ⟨?_, hi'.2⟩
        rcases List.mem_cons.mp hi with rfl | hmem
        · omega
        · have := hfront i hmem
          omega
      · exact (h.mem_iff i).mpr ⟨by omega, hi.2⟩

variable [Std.Total r]

/-- A position that has survived is better than every later one. -/
theorem better {i j : ℕ} (h : Survives r value a b queue) (hi : i ∈ queue) (hlt : i < j)
    (hb : j < b) : r (value j) (value i) :=
  (Std.Total.total (value i) (value j)).resolve_left (((h.mem_iff i).mp hi).2.2 j hlt hb)

variable [IsTrans α r]

theorem pushBack [DecidableRel r] (h : Survives r value a b queue) (hab : a ≤ b) :
    Survives r value a (b + 1) (pushBack r value queue b) := by
  have hsuffix : queue.Pairwise fun i j => decide (r (value i) (value b)) = true →
      decide (r (value j) (value b)) = true := by
    refine h.ordered.imp_of_mem fun hi hj hlt hbeaten => decide_eq_true ?_
    have hj' := (h.mem_iff _).mp hj
    exact IsTrans.trans _ _ _ (h.better hi hlt hj'.2.1) (of_decide_eq_true hbeaten)
  have hqueue : Lib.pushBack r value queue b =
      (queue.filter fun i => !decide (r (value i) (value b))) ++ [b] := by
    rw [Lib.pushBack, rdropWhile_eq_filter hsuffix]
  have hmem : ∀ i, i ∈ Lib.pushBack r value queue b ↔
      (i ∈ queue ∧ ¬ r (value i) (value b)) ∨ i = b := by
    intro i
    rw [hqueue, List.mem_append, List.mem_filter, List.mem_singleton, Bool.not_eq_true',
      decide_eq_false_iff_not]
  refine ⟨?_, fun i => ?_⟩
  · rw [hqueue, List.pairwise_append]
    refine ⟨h.ordered.filter _, List.pairwise_singleton _ _, fun i hi j hj => ?_⟩
    rw [List.mem_singleton.mp hj]
    exact ((h.mem_iff i).mp (List.mem_filter.mp hi).1).2.1
  · rw [hmem, h.mem_iff]
    constructor
    · rintro (⟨⟨hle, hlt, hbest⟩, hnew⟩ | rfl)
      · refine ⟨hle, by omega, fun j hij hj => ?_⟩
        rcases Nat.lt_succ_iff_lt_or_eq.mp hj with hold | rfl
        · exact hbest j hij hold
        · exact hnew
      · exact ⟨hab, Nat.lt_succ_self _, fun j hij hj => absurd hj (by omega)⟩
    · rintro ⟨hle, hlt, hbest⟩
      by_cases hlast : i = b
      · exact .inr hlast
      · exact .inl ⟨⟨hle, by omega, fun j hij hj => hbest j hij (by omega)⟩,
          hbest b (by omega) (Nat.lt_succ_self b)⟩

/-- Every position is beaten by one that has survived, unless it has survived itself. -/
theorem exists_better (h : Survives r value a b queue) {j : ℕ} (ha : a ≤ j) (hb : j < b) :
    ∃ i ∈ queue, j ≤ i ∧ r (value j) (value i) := by
  obtain ⟨n, hn⟩ : ∃ n, b - j = n := ⟨_, rfl⟩
  induction n using Nat.strong_induction_on generalizing j with
  | _ n ih =>
    by_cases hmem : j ∈ queue
    · exact ⟨j, hmem, le_rfl, (Std.Total.total (value j) (value j)).elim id id⟩
    · have hbeaten : ∃ k, j < k ∧ k < b ∧ r (value j) (value k) := by
        by_contra hnone
        refine hmem ((h.mem_iff j).mpr ⟨ha, hb, fun k hjk hkb hr => hnone ⟨k, hjk, hkb, hr⟩⟩)
      obtain ⟨k, hjk, hkb, hr⟩ := hbeaten
      obtain ⟨i, hi, hki, hik⟩ := ih (b - k) (by omega) (by omega) hkb rfl
      exact ⟨i, hi, by omega, IsTrans.trans _ _ _ hr hik⟩

/-- **The front is the best of the window.** -/
theorem front_best (h : Survives r value a b queue) (hab : a < b) :
    ∃ front rest, queue = front :: rest ∧ a ≤ front ∧ front < b ∧
      ∀ j, a ≤ j → j < b → r (value j) (value front) := by
  cases queue with
  | nil =>
    obtain ⟨i, hi, -⟩ := h.exists_better le_rfl hab
    exact absurd hi List.not_mem_nil
  | cons front rest =>
    have hfront := (h.mem_iff front).mp List.mem_cons_self
    refine ⟨front, rest, rfl, hfront.1, hfront.2.1, fun j ha hb => ?_⟩
    obtain ⟨i, hi, -, hr⟩ := h.exists_better ha hb
    rcases List.mem_cons.mp hi with rfl | hmem
    · exact hr
    · have hlt := (List.pairwise_cons.mp h.ordered).1 i hmem
      have hib := ((h.mem_iff i).mp hi).2.1
      exact IsTrans.trans _ _ _ hr (h.better List.mem_cons_self hlt hib)

end Survives

end TraderStack.Lib
