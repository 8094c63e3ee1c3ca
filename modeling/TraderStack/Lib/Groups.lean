import Mathlib.Data.List.Induction
import TraderStack.Lib.Dict

/-!
# Grouping a list

A list is grouped by a key into a dictionary of lists, each in the order of the list:
`groups.setdefault(key, []).append(value)` for each value in turn. Where a loop assigns instead of
appending, the last value of each key is left (`get?_lastBy`).
-/

namespace TraderStack.Lib

universe u v

variable {α : Type u} {κ : Type v} [DecidableEq κ]

/-- Add a value at the end of its group. -/
def Dict.push (d : Dict κ (List α)) (k : κ) (a : α) : Dict κ (List α) :=
  d.set k ((d.get? k).getD [] ++ [a])

/-- The groups of a list. -/
def groupBy (key : α → κ) (l : List α) : Dict κ (List α) :=
  l.foldl (fun d a => d.push (key a) a) .empty

theorem Dict.getD_push (d : Dict κ (List α)) (k j : κ) (a : α) :
    ((d.push k a).get? j).getD [] = (d.get? j).getD [] ++ if k = j then [a] else [] := by
  unfold Dict.push
  rw [Dict.get?_set]
  by_cases h : j = k
  · rw [if_pos h, if_pos h.symm, h]
    rfl
  · rw [if_neg h, if_neg (Ne.symm h), List.append_nil]

variable {key : α → κ} {l : List α}

theorem groupBy_append (l : List α) (a : α) :
    groupBy key (l ++ [a]) = (groupBy key l).push (key a) a := by
  unfold groupBy
  rw [List.foldl_append]
  rfl

/-- **A group is what the list has at its key.** -/
theorem getD_groupBy (key : α → κ) (l : List α) (k : κ) :
    ((groupBy key l).get? k).getD [] = l.filter fun a => key a = k := by
  induction l using List.reverseRecOn with
  | nil => rfl
  | append_singleton l a ih =>
    rw [groupBy_append, Dict.getD_push, ih, List.filter_append]
    by_cases h : key a = k
    · simp [h]
    · simp [h]

/-- A key has a group when a value has the key. -/
theorem mem_keys_groupBy {k : κ} : k ∈ (groupBy key l).keys ↔ ∃ a ∈ l, key a = k := by
  induction l using List.reverseRecOn with
  | nil => simp [groupBy, Dict.keys, Dict.empty]
  | append_singleton l a ih =>
    rw [groupBy_append]
    unfold Dict.push
    rw [Dict.mem_keys_set, ih]
    constructor
    · rintro (rfl | ⟨b, hb, hk⟩)
      · exact ⟨a, List.mem_append_right l (List.mem_singleton_self a), rfl⟩
      · exact ⟨b, List.mem_append_left _ hb, hk⟩
    · rintro ⟨b, hb, hk⟩
      rcases List.mem_append.mp hb with hb | hb
      · exact .inr ⟨b, hb, hk⟩
      · rw [List.mem_singleton.mp hb] at hk
        exact .inl hk.symm

/-! ## The last of each group -/

section Last

universe w

variable {β : Type w} {key : β → Option κ} {value : β → α} {l : List β} {k : κ}

/-- The last value of each key that an item has, as a loop that assigns them leaves it. -/
def lastBy (key : β → Option κ) (value : β → α) (l : List β) : Dict κ α :=
  l.foldl
    (fun d b =>
      match key b with
      | none => d
      | some k => d.set k (value b)) .empty

/-- **What stands at a key** is the value of the last item with the key. -/
theorem get?_lastBy :
    (lastBy key value l).get? k = ((l.filter fun b => key b = some k).getLast?).map value := by
  induction l using List.reverseRecOn with
  | nil => rfl
  | append_singleton l b ih =>
    have hlast : lastBy key value (l ++ [b]) =
        match key b with
        | none => lastBy key value l
        | some k => (lastBy key value l).set k (value b) := by
      unfold lastBy
      rw [List.foldl_append]
      rfl
    rw [hlast, List.filter_append]
    cases hb : key b with
    | none =>
      dsimp only
      rw [ih, List.filter_cons_of_neg (by simp [hb]), List.filter_nil, List.append_nil]
    | some j =>
      dsimp only
      rw [Dict.get?_set]
      by_cases hk : k = j
      · rw [if_pos hk, List.filter_cons_of_pos (by simp [hb, hk]), List.filter_nil,
          List.getLast?_concat]
        rfl
      · rw [if_neg hk, ih, List.filter_cons_of_neg (by simpa [hb] using Ne.symm hk),
          List.filter_nil, List.append_nil]

/-- Where at most one item has the key, its value stands there. -/
theorem get?_lastBy_of_unique {b : β} (hb : b ∈ l) (hk : key b = some k)
    (hunique : ∀ c ∈ l, key c = some k → c = b) : (lastBy key value l).get? k = some (value b) := by
  have hne : (l.filter fun b => key b = some k) ≠ [] :=
    List.ne_nil_of_mem (List.mem_filter.mpr ⟨hb, by simpa using hk⟩)
  rw [get?_lastBy, List.getLast?_eq_some_getLast hne, Option.map_some]
  have hmem := List.mem_filter.mp (List.getLast_mem hne)
  rw [hunique _ hmem.1 (by simpa using hmem.2)]

theorem exists_of_get?_lastBy {v : α} (h : (lastBy key value l).get? k = some v) :
    ∃ b ∈ l, key b = some k ∧ value b = v := by
  rw [get?_lastBy, Option.map_eq_some_iff] at h
  obtain ⟨b, hb, hv⟩ := h
  have hmem := List.mem_filter.mp (List.mem_of_getLast? hb)
  exact ⟨b, hmem.1, by simpa using hmem.2, hv⟩

end Last

end TraderStack.Lib
