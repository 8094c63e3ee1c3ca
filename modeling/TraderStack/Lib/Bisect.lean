import Mathlib.Order.Bounds.Basic
import Mathlib.Tactic.Ring

/-!
# Searching for the least number that passes a test

A search in two phases: double a seed until the test passes or a cap is exceeded, then
halve the interval. The test is monotone from 2 on.

- `bisect_isLeast`: halving finds the least number of an interval that passes;
- `exists_doubling`: doubling probes the seed times the powers of two, up to the first that
  passes or exceeds the cap.
-/

namespace TraderStack.Lib

/-- Double until the test passes or the cap is exceeded. -/
def double (p : ℕ → Bool) (cap upper : ℕ) : ℕ :=
  if 0 < upper ∧ upper ≤ cap ∧ p upper = false then double p cap (upper * 2) else upper
termination_by cap + 1 - upper

/-- Halve an interval at whose end the test passes. -/
def bisect (p : ℕ → Bool) (low high : ℕ) : ℕ :=
  if low + 1 < high then
    if p ((low + high) / 2) then bisect p low ((low + high) / 2)
    else bisect p ((low + high) / 2) high
  else high
termination_by high - low

/-- What passes at a size passes at every larger one. -/
def MonotoneFrom (least : ℕ) (p : ℕ → Bool) : Prop :=
  ∀ m n, least ≤ m → m ≤ n → p m = true → p n = true

variable {p : ℕ → Bool} {cap low high upper : ℕ}

theorem MonotoneFrom.false_of_le {least m n : ℕ} (h : MonotoneFrom least p) (hm : least ≤ m)
    (hle : m ≤ n) (hn : p n = false) : p m = false :=
  Bool.eq_false_iff.mpr fun hpass => Bool.eq_false_iff.mp hn (h m n hm hle hpass)

/-- Doubling probes the seed times the powers of two: all before the last fail, and the
last passes or exceeds the cap. -/
theorem exists_doubling (p : ℕ → Bool) (cap : ℕ) (hpos : 0 < upper) :
    ∃ k, double p cap upper = upper * 2 ^ k ∧
      (∀ i < k, upper * 2 ^ i ≤ cap ∧ p (upper * 2 ^ i) = false) ∧
      (cap < double p cap upper ∨ p (double p cap upper) = true) := by
  fun_induction double p cap upper with
  | case1 upper hgo ih =>
    obtain ⟨k, heq, hbefore, hend⟩ := ih (by omega)
    refine ⟨k + 1, by rw [heq]; ring, fun i hi => ?_, hend⟩
    cases i with
    | zero =>
      rw [Nat.pow_zero, Nat.mul_one]
      exact hgo.2
    | succ i =>
      have hstep : upper * 2 ^ (i + 1) = upper * 2 * 2 ^ i := by ring
      rw [hstep]
      exact hbefore i (by omega)
  | case2 upper hstop =>
    refine ⟨0, by rw [Nat.pow_zero, Nat.mul_one], fun i hi => absurd hi (Nat.not_lt_zero i), ?_⟩
    by_cases hle : upper ≤ cap
    · exact .inr (Bool.not_eq_false _ ▸ fun hfail => hstop ⟨hpos, hle, hfail⟩)
    · exact .inl (not_le.mp hle)

/-- **Halving finds the least number of the interval that passes.** -/
theorem bisect_isLeast (hp : MonotoneFrom 2 p) (hlow : 0 < low) (hlt : low < high)
    (hhigh : p high = true) : IsLeast {n | low < n ∧ p n = true} (bisect p low high) := by
  fun_induction bisect p low high with
  | case1 low high hgap hpass ih =>
    exact ih hlow (by omega) hpass
  | case2 low high hgap hfail ih =>
    obtain ⟨⟨hgt, hpass⟩, hleast⟩ := ih (by omega) (by omega) hhigh
    refine ⟨⟨by omega, hpass⟩, fun n hn => ?_⟩
    -- Nothing up to the middle passes, since the middle does not.
    by_cases hmiddle : (low + high) / 2 < n
    · exact hleast ⟨hmiddle, hn.2⟩
    · have hn2 : 2 ≤ n := by
        have hlow := hn.1
        omega
      exact absurd (hp n _ hn2 (not_lt.mp hmiddle) hn.2) hfail
  | case3 low high hstop =>
    exact ⟨⟨hlt, hhigh⟩, fun n hn => by have hlow := hn.1; omega⟩

end TraderStack.Lib
