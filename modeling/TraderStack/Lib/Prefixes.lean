import Mathlib.Data.List.Basic

/-!
# The first prefix that meets a condition

A process that looks at each new element together with all before it, and remembers the
first at which a condition on what it has seen held.
-/

namespace TraderStack.Lib

universe u

variable {α : Type u} {P : List α → Prop} [DecidablePred P]

/-- The first element at which `P` holds of all seen so far. -/
def firstMeeting (P : List α → Prop) [DecidablePred P] : List α → List α → Option α
  | _, [] => none
  | seen, x :: xs => if P (seen ++ [x]) then some x else firstMeeting P (seen ++ [x]) xs

theorem firstMeeting_concat (seen xs : List α) (x : α) :
    firstMeeting P seen (xs ++ [x])
      = (firstMeeting P seen xs).or (if P (seen ++ xs ++ [x]) then some x else none) := by
  induction xs generalizing seen with
  | nil => simp [firstMeeting]
  | cons y xs ih =>
    rw [List.cons_append, firstMeeting, firstMeeting, ih]
    split
    · rfl
    · rw [List.append_assoc seen [y] xs, List.singleton_append]

end TraderStack.Lib
