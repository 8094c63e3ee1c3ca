import Mathlib.Data.List.DropRight

/-!
# Trailing windows of a list

`trailing w n` is the last `w` of the first `n` elements: what a computation that walks a list sees
when it looks back a fixed number of elements. A longer list has the same windows.
-/

namespace TraderStack.Lib

universe u v

variable {α : Type u} {β : Type v}

/-- The last `w` of the first `n` elements: `xs[max(n - w, 0) : n]`. -/
def trailing (w n : ℕ) (xs : List α) : List α := (xs.take n).drop (n - w)

theorem trailing_append {w n : ℕ} {xs : List α} (h : n ≤ xs.length) (ys : List α) :
    trailing w n (xs ++ ys) = trailing w n xs := by
  rw [trailing, trailing, List.take_append_of_le_length h]

theorem trailing_take {w n k : ℕ} {xs : List α} (h : n ≤ k) :
    trailing w n (xs.take k) = trailing w n xs := by
  rw [trailing, trailing, List.take_take, Nat.min_eq_left h]

theorem getElem?_trailing {w n i : ℕ} (xs : List α) (h : n - w + i < n) :
    (trailing w n xs)[i]? = xs[n - w + i]? := by
  rw [trailing, List.getElem?_drop, List.getElem?_take_of_lt h]

theorem trailing_length (w : ℕ) (xs : List α) :
    trailing w xs.length xs = xs.drop (xs.length - w) := by
  rw [trailing, List.take_length]

theorem map_trailing (f : α → β) (w n : ℕ) (xs : List α) :
    (trailing w n xs).map f = trailing w n (xs.map f) := by
  rw [trailing, trailing, List.map_drop, List.map_take]

theorem mem_of_mem_trailing {w n : ℕ} {xs : List α} {x : α} (h : x ∈ trailing w n xs) :
    x ∈ xs.take n :=
  List.mem_of_mem_drop h

theorem length_trailing {w n : ℕ} {xs : List α} (h : n ≤ xs.length) :
    (trailing w n xs).length = min w n := by
  rw [trailing, List.length_drop, List.length_take, Nat.min_eq_left h]
  omega

/-- A new element enters the window, and one that has become too old leaves it. -/
theorem trailing_concat {w : ℕ} (hw : 0 < w) (xs : List α) (x : α) :
    trailing w (xs.length + 1) (xs ++ [x]) = xs.drop (xs.length + 1 - w) ++ [x] := by
  have hlength : (xs ++ [x]).length = xs.length + 1 := List.length_append
  rw [← hlength, trailing_length, hlength, List.drop_append_of_le_length (by omega)]

/-- The window of a window and a new element is that of the whole list. -/
theorem rtake_rtake_concat {w : ℕ} (hw : 0 < w) (xs : List α) (x : α) :
    (xs.rtake w ++ [x]).rtake w = (xs ++ [x]).rtake w := by
  obtain ⟨n, rfl⟩ : ∃ n, w = n + 1 := ⟨w - 1, by omega⟩
  rw [List.rtake_concat_succ, List.rtake_concat_succ]
  congr 1
  rw [List.rtake, List.rtake, List.rtake, List.drop_drop, List.length_drop]
  congr 1
  omega

/-- The places of a shorter list come first among those of a longer one. -/
theorem prefix_range' {start m n : ℕ} (h : m ≤ n) : List.range' start m <+: List.range' start n :=
  ⟨List.range' (start + m) (n - m), by rw [List.range'_append_1, Nat.add_sub_cancel' h]⟩

end TraderStack.Lib
