import Mathlib.Algebra.BigOperators.Group.List.Basic
import Mathlib.Data.List.ReduceOption
import Mathlib.Tactic.Abel

/-!
# Spells of a process that is held and left

At each moment a process is left (`none`) or held, and what is held may be valued there
(`some (some x)`) or not (`some none`). Its spells are the maximal runs of moments at which it
is held. A holder earns the moves between the values it sees; one that forgets the last value
when it leaves earns in each spell what that spell moved (`sum_moves_forget`), and one that
remembers it earns the moves between spells too (`sum_moves_keep`, `moves_keep_eq_iff`).
-/

namespace TraderStack.Lib

universe u

section

variable {α : Type u}

/-- The spells of a process, the first of which has begun. -/
def spellsFrom (current : List α) : List (Option α) → List (List α)
  | [] => [current]
  | none :: rest => current :: spellsFrom [] rest
  | some x :: rest => spellsFrom (current ++ [x]) rest

/-- The spells of a process: its maximal runs of moments at which it is held. -/
def spells (marks : List (Option α)) : List (List α) :=
  (spellsFrom [] marks).filter fun spell => !spell.isEmpty

end

section

variable {G : Type u} [AddCommGroup G]

/-- The first value less the last. -/
def drift (values : List G) : G := values.head?.getD 0 - values.getLast?.getD 0

/-- The move from the last value seen to the one at hand, where there are both. -/
def move : Option G → Option G → G
  | some last, some current => last - current
  | _, _ => 0

/-- What a holder earns at each moment. `forget` says whether it forgets the last value it saw
when it leaves. -/
def moves (forget : Bool) : Option G → List (Option (Option G)) → List G
  | _, [] => []
  | last, none :: rest => 0 :: moves forget (if forget then none else last) rest
  | last, some current :: rest => move last current :: moves forget (current.or last) rest

/-- The moves from the last value seen in a spell to the first one seen in a later spell.
`seen` says that the spell at hand has been valued. -/
def gaps : Option G → Bool → List (Option (Option G)) → List G
  | _, _, [] => []
  | last, _, none :: rest => gaps last false rest
  | last, seen, some none :: rest => gaps last seen rest
  | last, seen, some (some current) :: rest =>
    (if seen then [] else last.toList.map (· - current)) ++ gaps (some current) true rest

theorem length_moves (forget : Bool) (last : Option G) (marks : List (Option (Option G))) :
    (moves forget last marks).length = marks.length := by
  induction marks generalizing last with
  | nil => rfl
  | cons mark rest ih =>
    cases mark with
    | none => rw [moves, List.length_cons, List.length_cons, ih]
    | some current => rw [moves, List.length_cons, List.length_cons, ih]

@[simp] theorem drift_nil : drift ([] : List G) = 0 := by simp [drift]

/-- One more value. -/
theorem drift_concat (values : List G) (x : G) :
    drift (values ++ [x]) = drift values + move values.getLast? (some x) := by
  rcases List.eq_nil_or_concat values with rfl | ⟨before, last, rfl⟩
  · simp [drift, move]
  · rw [List.concat_eq_append]
    have hhead : (before ++ [last] ++ [x]).head?.getD 0 = (before ++ [last]).head?.getD 0 := by
      cases before <;> rfl
    rw [drift, drift, hhead, List.getLast?_concat, List.getLast?_concat]
    show _ - x = _ - last + (last - x)
    abel

omit [AddCommGroup G] in
theorem getLast?_reduceOption_concat (values : List (Option G)) (current : Option G) :
    (values ++ [current]).reduceOption.getLast? = current.or values.reduceOption.getLast? := by
  rw [List.reduceOption_append]
  cases current with
  | none => simp
  | some x => simp

theorem drift_reduceOption_concat (values : List (Option G)) (current : Option G) :
    drift (values ++ [current]).reduceOption
      = drift values.reduceOption + move values.reduceOption.getLast? current := by
  cases current with
  | none =>
    have hmove : move values.reduceOption.getLast? (none : Option G) = 0 := by
      cases values.reduceOption.getLast? <;> rfl
    rw [hmove, add_zero, List.reduceOption_append]
    simp
  | some x =>
    rw [List.reduceOption_append]
    exact drift_concat _ x

/-! ## The holder that forgets -/

theorem sum_moves_spellsFrom (current : List (Option G)) (marks : List (Option (Option G))) :
    drift current.reduceOption + (moves true current.reduceOption.getLast? marks).sum
      = ((spellsFrom current marks).map fun spell => drift spell.reduceOption).sum := by
  induction marks generalizing current with
  | nil => simp [moves, spellsFrom]
  | cons mark rest ih =>
    cases mark with
    | none =>
      -- the spell at hand ends, and an empty one begins
      have hempty := ih []
      rw [List.reduceOption_nil, drift_nil, zero_add, List.getLast?_nil] at hempty
      rw [moves, if_pos rfl, spellsFrom, List.sum_cons, zero_add, hempty, List.map_cons,
        List.sum_cons]
    | some value =>
      rw [moves, spellsFrom, List.sum_cons, ← ih, drift_reduceOption_concat,
        getLast?_reduceOption_concat, add_assoc]

/-- Spells without a moment have no drift. -/
theorem sum_drift_spells (marks : List (Option (Option G))) :
    ((spells marks).map fun spell => drift spell.reduceOption).sum
      = ((spellsFrom [] marks).map fun spell => drift spell.reduceOption).sum := by
  rw [spells]
  induction spellsFrom [] marks with
  | nil => rfl
  | cons spell rest ih =>
    cases spell with
    | nil =>
      rw [List.filter_cons_of_neg (by simp), ih, List.map_cons, List.sum_cons,
        List.reduceOption_nil, drift_nil, zero_add]
    | cons value spell =>
      rw [List.filter_cons_of_pos (by simp), List.map_cons, List.sum_cons, ih, List.map_cons,
        List.sum_cons]

/-- **A holder that forgets** earns what each spell moved. -/
theorem sum_moves_forget (marks : List (Option (Option G))) :
    (moves true none marks).sum
      = ((spells marks).map fun spell => drift spell.reduceOption).sum := by
  rw [sum_drift_spells, ← sum_moves_spellsFrom]
  simp

/-! ## The holder that remembers -/

/-- The last value of the spell at hand, given whether it has one. -/
def within (last : Option G) (seen : Bool) : Option G := if seen then last else none

theorem sum_moves_keep_within (last : Option G) (seen : Bool) (marks : List (Option (Option G))) :
    (moves false last marks).sum
      = (moves true (within last seen) marks).sum + (gaps last seen marks).sum := by
  induction marks generalizing last seen with
  | nil => simp [moves, gaps]
  | cons mark rest ih =>
    rcases mark with - | - | current
    · rw [moves, moves, gaps, List.sum_cons, List.sum_cons, zero_add, zero_add]
      exact ih last false
    · have hmove : ∀ prev : Option G, move prev (none : Option G) = 0 := by
        rintro (- | -) <;> rfl
      rw [moves, moves, gaps, List.sum_cons, List.sum_cons, hmove, hmove, zero_add, zero_add]
      exact ih last seen
    · rw [moves, moves, gaps, List.sum_cons, List.sum_cons, List.sum_append]
      have hrest := ih (some current) true
      have hfirst : move last (some current)
          = move (within last seen) (some current)
            + (if seen then [] else last.toList.map (· - current)).sum := by
        cases seen <;> cases last <;> simp [within, move]
      show move last (some current) + (moves false (some current) rest).sum = _
      rw [hrest, hfirst]
      show _ = move _ _ + (moves true (some current) rest).sum + _
      rw [show within (some current) true = some current from rfl]
      abel

/-- **A holder that remembers** also earns the moves between spells. -/
theorem sum_moves_keep (marks : List (Option (Option G))) :
    (moves false none marks).sum
      = ((spells marks).map fun spell => drift spell.reduceOption).sum
        + (gaps none false marks).sum := by
  rw [sum_moves_keep_within none false, ← sum_moves_forget]
  rfl

theorem moves_keep_eq_within_iff (last : Option G) (seen : Bool)
    (marks : List (Option (Option G))) :
    moves false last marks = moves true (within last seen) marks ↔
      ∀ gap ∈ gaps last seen marks, gap = 0 := by
  induction marks generalizing last seen with
  | nil => simp [moves, gaps]
  | cons mark rest ih =>
    rcases mark with - | - | current
    · rw [moves, moves, gaps, List.cons.injEq, ← ih last false]
      exact and_iff_right rfl
    · rw [moves, moves, gaps, List.cons.injEq, ← ih last seen]
      refine and_iff_right ?_
      cases last <;> cases seen <;> rfl
    · rw [moves, moves, gaps, List.cons.injEq, List.forall_mem_append, ← ih (some current) true]
      refine and_congr ?_ Iff.rfl
      cases seen <;> cases last <;> simp [within, move]

/-- **The two earn the same** at every moment exactly when no value moved between two
spells. -/
theorem moves_keep_eq_iff (marks : List (Option (Option G))) :
    moves false none marks = moves true none marks ↔ ∀ gap ∈ gaps none false marks, gap = 0 :=
  moves_keep_eq_within_iff none false marks

end

end TraderStack.Lib
