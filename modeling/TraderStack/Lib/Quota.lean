import Mathlib.Algebra.Order.Field.Basic
import Mathlib.Data.List.TakeWhile
import Mathlib.Tactic.Linarith

/-!
# Quotas over a history of times

What was admitted is a list of times; a limiter keeps only a part of it. A sliding
limiter keeps the recent times, a periodic one the number in the current period. Both
are told the time by a clock that never goes back.

- `WithinWindow.push`: no window of the width ever holds more than the limit;
- `WithinPeriod.push`: no period does.
-/

namespace TraderStack.Lib

/-! ## A sliding window -/

section

variable {K : Type*} [Field K] [LinearOrder K] [IsStrictOrderedRing K]

/-- Drop what is older than the width. -/
def prune (width now : K) (recent : List K) : List K := recent.dropWhile fun s => s < now - width

/-- No window of the width, closed on both sides, holds more than the limit. -/
def WithinWindow (width : K) (limit : ℕ) (admitted : List K) : Prop :=
  ∀ t, (admitted.countP fun s => t ≤ s ∧ s ≤ t + width) ≤ limit

/-- What is no longer kept is older than the width. -/
def Recent (width now : K) (admitted recent : List K) : Prop :=
  ∃ old, admitted = old ++ recent ∧ ∀ s ∈ old, s < now - width

variable {width now now' : K} {limit : ℕ} {admitted recent : List K}

omit [IsStrictOrderedRing K] in
theorem Recent.nil : Recent width now [] [] := ⟨[], rfl, fun _ hs => absurd hs List.not_mem_nil⟩

theorem Recent.later (h : Recent width now admitted recent) (hle : now ≤ now') :
    Recent width now' admitted recent := by
  obtain ⟨old, hsplit, hold⟩ := h
  exact ⟨old, hsplit, fun s hs => (hold s hs).trans_le (sub_le_sub_right hle width)⟩

omit [IsStrictOrderedRing K] in
theorem Recent.prune (h : Recent width now admitted recent) :
    Recent width now admitted (prune width now recent) := by
  obtain ⟨old, hsplit, hold⟩ := h
  refine ⟨old ++ recent.takeWhile fun s => s < now - width, ?_, fun s hs => ?_⟩
  · rw [hsplit, List.append_assoc]
    exact congrArg (old ++ ·) (List.takeWhile_append_dropWhile).symm
  · rcases List.mem_append.mp hs with hmem | hmem
    · exact hold s hmem
    · have hdropped := List.mem_takeWhile_imp hmem
      exact of_decide_eq_true hdropped

omit [IsStrictOrderedRing K] in
theorem Recent.push (h : Recent width now admitted recent) :
    Recent width now (admitted ++ [now]) (recent ++ [now]) := by
  obtain ⟨old, hsplit, hold⟩ := h
  exact ⟨old, by rw [hsplit, List.append_assoc], hold⟩

omit [IsStrictOrderedRing K] in
theorem WithinWindow.nil : WithinWindow width limit [] := fun _ => Nat.zero_le _

/-- **Admitting where there is room** keeps every window within the limit: a window that
holds the new time holds nothing that was dropped. -/
theorem WithinWindow.push (h : WithinWindow width limit admitted)
    (hrecent : Recent width now admitted recent) (hroom : recent.length < limit) :
    WithinWindow width limit (admitted ++ [now]) := by
  intro t
  rw [List.countP_append]
  by_cases hin : t ≤ now ∧ now ≤ t + width
  · obtain ⟨old, hsplit, hold⟩ := hrecent
    have hnone : (old.countP fun s => t ≤ s ∧ s ≤ t + width) = 0 := by
      rw [List.countP_eq_zero]
      intro s hs hwindow
      have hlt := hold s hs
      have hle := (of_decide_eq_true hwindow).1
      linarith [hin.2]
    have hkept : (recent.countP fun s => t ≤ s ∧ s ≤ t + width) ≤ recent.length :=
      List.countP_le_length
    have hone : ([now].countP fun s => t ≤ s ∧ s ≤ t + width) ≤ 1 := List.countP_le_length
    rw [hsplit, List.countP_append, hnone]
    omega
  · have hnot : ([now].countP fun s => t ≤ s ∧ s ≤ t + width) = 0 := by
      rw [List.countP_singleton, decide_eq_false hin]
      rfl
    rw [hnot, Nat.add_zero]
    exact h t

end

/-! ## Periods -/

section

variable {T : Type*} {P : Type*} [LinearOrder P] {period : T → P}

/-- No period holds more than the limit. -/
def WithinPeriod (period : T → P) (limit : ℕ) (admitted : List T) : Prop :=
  ∀ d, (admitted.countP fun s => period s = d) ≤ limit

/-- A count for the current period, which no admitted time is after. -/
structure Tally (period : T → P) (admitted : List T) (current : Option P) (count : ℕ) : Prop where
  counted : ∀ d, current = some d → (admitted.countP fun s => period s = d) = count
  notAfter : ∀ s ∈ admitted, ∃ d, current = some d ∧ period s ≤ d

variable {admitted : List T} {current : Option P} {count limit : ℕ} {now : T}

theorem Tally.start : Tally period [] none 0 where
  counted := fun _ h => nomatch h
  notAfter := fun _ hs => absurd hs List.not_mem_nil

/-- Into the period of a time that is not before the current one: a new period starts
from nothing. -/
theorem Tally.roll (h : Tally period admitted current count)
    (hle : ∀ d, current = some d → d ≤ period now) :
    Tally period admitted (some (period now))
      (if current = some (period now) then count else 0) := by
  constructor
  · rintro d hd
    obtain rfl := Option.some.inj hd
    by_cases hsame : current = some (period now)
    · rw [if_pos hsame]
      exact h.counted _ hsame
    · rw [if_neg hsame, List.countP_eq_zero]
      intro s hs hperiod
      obtain ⟨d, hd, hsd⟩ := h.notAfter s hs
      have heq : d = period now :=
        le_antisymm (hle d hd) (of_decide_eq_true hperiod ▸ hsd)
      exact hsame (heq ▸ hd)
  · intro s hs
    obtain ⟨d, hd, hsd⟩ := h.notAfter s hs
    exact ⟨_, rfl, hsd.trans (hle d hd)⟩

theorem Tally.push (h : Tally period admitted (some (period now)) count) :
    Tally period (admitted ++ [now]) (some (period now)) (count + 1) := by
  constructor
  · rintro d hd
    obtain rfl := Option.some.inj hd
    rw [List.countP_append, h.counted _ rfl, List.countP_singleton, decide_eq_true rfl]
    rfl
  · intro s hs
    rcases List.mem_append.mp hs with hold | hnew
    · exact h.notAfter s hold
    · rw [List.mem_singleton.mp hnew]
      exact ⟨_, rfl, le_refl _⟩

theorem WithinPeriod.nil : WithinPeriod period limit [] := fun _ => Nat.zero_le _

/-- **Admitting where there is room** keeps every period within the limit. -/
theorem WithinPeriod.push (h : WithinPeriod period limit admitted)
    (htally : Tally period admitted (some (period now)) count) (hroom : count < limit) :
    WithinPeriod period limit (admitted ++ [now]) := by
  intro d
  rw [List.countP_append, List.countP_singleton]
  by_cases hd : period now = d
  · have hcount := htally.counted d (congrArg some hd)
    rw [hcount, decide_eq_true hd, if_pos rfl]
    omega
  · rw [decide_eq_false hd, if_neg Bool.false_ne_true, Nat.add_zero]
    exact h d

end

end TraderStack.Lib
