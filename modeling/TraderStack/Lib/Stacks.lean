import Mathlib.Data.List.Basic

/-!
# Stacks of labelled blocks

The blocks of some keys one after the other, each element labelled with its key. Where the keys
are distinct, the labels tell where one block ends and the next begins, so that one stack is a
prefix of another only if the blocks before its last one are equal.

- `stack_prefix_iff`: when a stack is a prefix of another one.
-/

namespace TraderStack.Lib

universe u v

variable {κ : Type u} {β : Type v}

/-- The blocks of the keys, labelled. -/
def stack (keys : List κ) (block : κ → List β) : List (κ × β) :=
  keys.flatMap fun k => (block k).map (k, ·)

variable {s t : κ → List β}

theorem stack_cons (k : κ) (keys : List κ) (block : κ → List β) :
    stack (k :: keys) block = (block k).map (k, ·) ++ stack keys block :=
  List.flatMap_cons ..

theorem fst_mem_of_mem_stack {keys : List κ} {e : κ × β} (h : e ∈ stack keys s) : e.1 ∈ keys := by
  obtain ⟨k, hk, he⟩ := List.mem_flatMap.mp h
  obtain ⟨b, -, rfl⟩ := List.mem_map.mp he
  exact hk

theorem stack_eq_nil_iff {keys : List κ} : stack keys s = [] ↔ ∀ k ∈ keys, s k = [] := by
  simp [stack, List.flatMap_eq_nil_iff]

/-- Up to the last key with a block, the first family has the blocks of the second one, and there
a prefix of it. -/
def Leads (s t : κ → List β) : List κ → Prop
  | [] => True
  | k :: keys =>
    s k <+: t k ∧ ((∃ j ∈ keys, s j ≠ []) → s k = t k) ∧ Leads s t keys

theorem leads_of_empty {keys : List κ} (h : ∀ k ∈ keys, s k = []) : Leads s t keys := by
  induction keys with
  | nil => trivial
  | cons k keys ih =>
    obtain ⟨hk, hkeys⟩ := List.forall_mem_cons.mp h
    refine ⟨hk ▸ List.nil_prefix, ?_, ih hkeys⟩
    rintro ⟨j, hj, hne⟩
    exact absurd (hkeys j hj) hne

/-- A block followed by elements with other labels is a prefix only of a block that starts with
it, and of the same block if something follows. -/
theorem block_prefix_iff {k : κ} {xs ys : List β} {as bs : List (κ × β)}
    (has : ∀ a ∈ as, a.1 ≠ k) (hbs : ∀ b ∈ bs, b.1 ≠ k) :
    xs.map (k, ·) ++ as <+: ys.map (k, ·) ++ bs ↔
      xs <+: ys ∧ (as ≠ [] → xs = ys ∧ as <+: bs) := by
  induction xs generalizing ys with
  | nil =>
    cases ys with
    | nil =>
      simp only [List.map_nil, List.nil_append, List.prefix_refl, true_and]
      by_cases hnil : as = []
      · simp [hnil]
      · simp [hnil]
    | cons y ys =>
      cases as with
      | nil => simp
      | cons a as =>
        have hlabel : a.1 ≠ k := has a List.mem_cons_self
        constructor
        · intro hlead
          simp only [List.map_nil, List.nil_append, List.map_cons, List.cons_append,
            List.cons_prefix_cons] at hlead
          exact absurd (congrArg Prod.fst hlead.1) hlabel
        · rintro ⟨-, hsame⟩
          cases (hsame (List.cons_ne_nil a as)).1
  | cons x xs ih =>
    cases ys with
    | nil =>
      constructor
      · intro hlead
        cases bs with
        | nil => simp at hlead
        | cons b bs =>
          simp only [List.map_nil, List.nil_append, List.map_cons, List.cons_append,
            List.cons_prefix_cons] at hlead
          exact absurd (congrArg Prod.fst hlead.1).symm (hbs b List.mem_cons_self)
      · rintro ⟨hlead, -⟩
        simp at hlead
    | cons y ys =>
      simp only [List.map_cons, List.cons_append, List.cons_prefix_cons, Prod.mk.injEq, true_and,
        List.cons.injEq, ih]
      constructor
      · rintro ⟨hxy, hlead, hrest⟩
        exact ⟨⟨hxy, hlead⟩, fun hne => ⟨⟨hxy, (hrest hne).1⟩, (hrest hne).2⟩⟩
      · rintro ⟨⟨hxy, hlead⟩, hrest⟩
        exact ⟨hxy, hlead, fun hne => ⟨(hrest hne).1.2, (hrest hne).2⟩⟩

/-- **A stack is a prefix of another one** exactly when it leads it. -/
theorem stack_prefix_iff {keys : List κ} (hnodup : keys.Nodup) :
    stack keys s <+: stack keys t ↔ Leads s t keys := by
  induction keys with
  | nil => simp [stack, Leads]
  | cons k keys ih =>
    obtain ⟨hfresh, hkeys⟩ := List.nodup_cons.mp hnodup
    have hother : ∀ block : κ → List β, ∀ e ∈ stack keys block, e.1 ≠ k := by
      intro block e he heq
      exact hfresh (heq ▸ fst_mem_of_mem_stack he)
    have hrest : stack keys s ≠ [] ↔ ∃ j ∈ keys, s j ≠ [] := by
      rw [Ne, stack_eq_nil_iff]
      constructor
      · intro hne
        by_contra hall
        exact hne fun j hj => by_contra fun hs => hall ⟨j, hj, hs⟩
      · rintro ⟨j, hj, hs⟩ hall
        exact hs (hall j hj)
    rw [stack_cons, stack_cons, block_prefix_iff (hother s) (hother t), ih hkeys, hrest, Leads]
    constructor
    · rintro ⟨hlead, hsame⟩
      refine ⟨hlead, fun hne => (hsame hne).1, ?_⟩
      by_cases hne : ∃ j ∈ keys, s j ≠ []
      · exact (hsame hne).2
      · exact leads_of_empty fun j hj => by_contra fun hs => hne ⟨j, hj, hs⟩
    · rintro ⟨hlead, hsame, hleads⟩
      exact ⟨hlead, fun hne => ⟨hsame hne, hleads⟩⟩

end TraderStack.Lib
