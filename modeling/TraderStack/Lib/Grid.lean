import Mathlib.Data.List.Forall2
import Mathlib.Tactic.Linarith
import Mathlib.Tactic.LinearCombination
import Mathlib.Tactic.Ring

/-!
# Values on a grid

A series assigns to each cell of the integers a value, or none. A window is the list of
the values of consecutive cells, if all are there. A list in strictly increasing order of
its cells is such a series.

- `window_cell`: the values of a list that lie in a window are that window, exactly when
  there are enough of them;
- `chunks_window`: a window of windows is a window, cut into chunks.
-/

namespace TraderStack.Lib

variable {α β : Type*}

/-! ## Windows -/

/-- The values of so many cells from one on, if all are there. -/
def window (f : ℤ → Option α) (start : ℤ) : ℕ → Option (List α)
  | 0 => some []
  | n + 1 => (f start).bind fun a => (window f (start + 1) n).map (a :: ·)

theorem window_succ (f : ℤ → Option α) (start : ℤ) (n : ℕ) :
    window f start (n + 1) = (f start).bind fun a => (window f (start + 1) n).map (a :: ·) :=
  rfl

theorem window_succ_eq_some {f : ℤ → Option α} {start : ℤ} {n : ℕ} {l : List α} :
    window f start (n + 1) = some l ↔
      ∃ a rest, f start = some a ∧ window f (start + 1) n = some rest ∧ l = a :: rest := by
  rw [window_succ]
  cases f start with
  | none => simp
  | some a =>
    cases window f (start + 1) n with
    | none => simp
    | some rest => simp [eq_comm]

theorem length_window {f : ℤ → Option α} {start : ℤ} {n : ℕ} {l : List α}
    (h : window f start n = some l) : l.length = n := by
  induction n generalizing start l with
  | zero => cases h; rfl
  | succ n ih =>
    obtain ⟨a, rest, -, hrest, rfl⟩ := window_succ_eq_some.mp h
    rw [List.length_cons, ih hrest]

/-- A window is there when all its cells are. -/
theorem window_isSome_iff {f : ℤ → Option α} {start : ℤ} {n : ℕ} :
    (window f start n).isSome ↔ ∀ i < n, (f (start + i)).isSome := by
  induction n generalizing start with
  | zero => simp [window]
  | succ n ih =>
    constructor
    · intro h i hi
      obtain ⟨l, hl⟩ := Option.isSome_iff_exists.mp h
      obtain ⟨a, rest, ha, hrest, -⟩ := window_succ_eq_some.mp hl
      cases i with
      | zero =>
        rw [Nat.cast_zero, add_zero, ha]
        rfl
      | succ i =>
        have hcell := ih.mp (Option.isSome_iff_exists.mpr ⟨rest, hrest⟩) i (by omega)
        rwa [show start + 1 + (i : ℤ) = start + ((i + 1 : ℕ) : ℤ) by push_cast; ring] at hcell
    · intro h
      have hhead := h 0 (by omega)
      rw [Nat.cast_zero, add_zero] at hhead
      obtain ⟨a, ha⟩ := Option.isSome_iff_exists.mp hhead
      have htail : (window f (start + 1) n).isSome := ih.mpr fun i hi => by
        have hcell := h (i + 1) (by omega)
        rwa [show start + ((i + 1 : ℕ) : ℤ) = start + 1 + (i : ℤ) by push_cast; ring] at hcell
      obtain ⟨rest, hrest⟩ := Option.isSome_iff_exists.mp htail
      exact Option.isSome_iff_exists.mpr
        ⟨_, window_succ_eq_some.mpr ⟨a, rest, ha, hrest, rfl⟩⟩

/-- The values of a window, cell by cell. -/
theorem getElem?_window {f : ℤ → Option α} {start : ℤ} {n i : ℕ} {l : List α}
    (h : window f start n = some l) (hi : i < n) : l[i]? = f (start + i) := by
  induction n generalizing start l i with
  | zero => omega
  | succ n ih =>
    obtain ⟨a, rest, ha, hrest, rfl⟩ := window_succ_eq_some.mp h
    cases i with
    | zero => rw [Nat.cast_zero, add_zero, ha]; rfl
    | succ i =>
      rw [List.getElem?_cons_succ, ih hrest (by omega),
        show start + 1 + (i : ℤ) = start + ((i + 1 : ℕ) : ℤ) by push_cast; ring]

/-- Two windows in a row are one. -/
theorem window_add (f : ℤ → Option α) (start : ℤ) (m n : ℕ) :
    window f start (m + n)
      = (window f start m).bind fun l => (window f (start + m) n).map (l ++ ·) := by
  induction m generalizing start with
  | zero => simp [window]
  | succ m ih =>
    have hsucc : m + 1 + n = m + n + 1 := by omega
    have hstart : start + ((m + 1 : ℕ) : ℤ) = start + 1 + m := by push_cast; ring
    rw [hsucc, hstart, window_succ, window_succ, ih]
    cases f start with
    | none => rfl
    | some a =>
      cases window f (start + 1) m with
      | none => rfl
      | some l =>
        cases window f (start + 1 + m) n with
        | none => rfl
        | some l' => rfl

/-! ## Windows of windows -/

/-- One window next to another: both are missing, or the second is cut into chunks of one
length whose results are the first. -/
inductive Chunks (r : ℤ → List α → Option β) (m : ℕ) : Option (List β) → Option (List α) → Prop
  | missing : Chunks r m none none
  | cut (bs : List β) (chunks : List (List α))
      (h : List.Forall₂ (fun b chunk => chunk.length = m ∧ ∃ k, r k chunk = some b) bs chunks) :
      Chunks r m (some bs) (some chunks.flatten)

/-- **A window of windows is a window.** -/
theorem chunks_window {f : ℤ → Option α} {g : ℤ → Option β} {r : ℤ → List α → Option β} {m : ℕ}
    (hg : ∀ k, g k = (window f (k * m) m).bind (r k))
    (hr : ∀ k l, l.length = m → (r k l).isSome) (start : ℤ) (n : ℕ) :
    Chunks r m (window g start n) (window f (start * m) (n * m)) := by
  induction n generalizing start with
  | zero =>
    rw [Nat.zero_mul]
    exact .cut [] [] .nil
  | succ n ih =>
    have hsplit : window f (start * m) ((n + 1) * m) = (window f (start * m) m).bind fun l =>
        (window f ((start + 1) * m) (n * m)).map (l ++ ·) := by
      have hlen : (n + 1) * m = m + n * m := by ring
      have hstart : (start + 1) * (m : ℤ) = start * m + m := by ring
      rw [hlen, hstart, window_add]
    have hrest := ih (start + 1)
    rw [hsplit, window_succ, hg start]
    cases hchunk : window f (start * m) m with
    | none => exact .missing
    | some chunk =>
      have hlength := length_window hchunk
      obtain ⟨b, hb⟩ := Option.isSome_iff_exists.mp (hr start chunk hlength)
      rw [Option.bind_some, Option.bind_some, hb]
      cases hbs : window g (start + 1) n with
      | none =>
        rw [hbs] at hrest
        cases hls : window f ((start + 1) * m) (n * m) with
        | none => exact .missing
        | some ls =>
          rw [hls] at hrest
          cases hrest
      | some bs =>
        rw [hbs] at hrest
        cases hls : window f ((start + 1) * m) (n * m) with
        | none =>
          rw [hls] at hrest
          cases hrest
        | some ls =>
          rw [hls] at hrest
          cases hrest with
          | cut _ chunks hall =>
            exact .cut (b :: bs) (chunk :: chunks) (.cons ⟨hlength, start, hb⟩ hall)

/-! ## A list as a series -/

/-- The value of a list at a cell. -/
def cellOf (index : α → ℤ) (l : List α) (k : ℤ) : Option α := l.find? fun a => index a = k

variable {index : α → ℤ} {l : List α}

theorem cellOf_eq_some_iff (h : l.Pairwise fun a b => index a < index b) {k : ℤ} {a : α} :
    cellOf index l k = some a ↔ a ∈ l ∧ index a = k := by
  constructor
  · intro hfound
    exact ⟨List.mem_of_find?_eq_some hfound,
      of_decide_eq_true (List.find?_some (p := fun a => decide (index a = k)) hfound)⟩
  · rintro ⟨hmem, rfl⟩
    induction l with
    | nil => exact absurd hmem List.not_mem_nil
    | cons b l ih =>
      obtain ⟨hbefore, htail⟩ := List.pairwise_cons.mp h
      unfold cellOf
      rcases List.mem_cons.mp hmem with rfl | hmem
      · exact List.find?_cons_of_pos (decide_eq_true rfl)
      · have hne : ¬index b = index a := (hbefore a hmem).ne
        rw [List.find?_cons_of_neg (by rw [decide_eq_true_eq]; exact hne)]
        exact ih htail hmem

/-- The values of a list in the cells of a window. -/
def inWindow (index : α → ℤ) (l : List α) (start : ℤ) (n : ℕ) : List α :=
  l.filter fun a => start ≤ index a ∧ index a < start + n

/-- The values in a window are those of its first cell and those of the others. -/
theorem inWindow_succ (h : l.Pairwise fun a b => index a < index b) (start : ℤ) (n : ℕ) :
    inWindow index l start (n + 1)
      = (cellOf index l start).toList ++ inWindow index l (start + 1) n := by
  induction l with
  | nil => rfl
  | cons b l ih =>
    obtain ⟨hbefore, htail⟩ := List.pairwise_cons.mp h
    have hrest := ih htail
    unfold inWindow at hrest ⊢
    unfold cellOf at hrest ⊢
    rcases lt_trichotomy (index b) start with hlt | heq | hgt
    · rw [List.filter_cons_of_neg, List.filter_cons_of_neg, List.find?_cons_of_neg, hrest]
      · simp only [decide_eq_true_eq]; omega
      · simp only [decide_eq_true_eq]; omega
      · simp only [decide_eq_true_eq]; omega
    · -- The first cell; everything after lies beyond it.
      have hnone : l.find? (fun a => decide (index a = start)) = none := by
        rw [List.find?_eq_none]
        intro a ha hat
        have hafter := hbefore a ha
        have hindex : index a = start := of_decide_eq_true hat
        omega
      rw [hnone] at hrest
      rw [List.filter_cons_of_pos, List.filter_cons_of_neg, List.find?_cons_of_pos, hrest]
      · rfl
      · exact decide_eq_true heq
      · simp only [decide_eq_true_eq]; omega
      · simp only [decide_eq_true_eq]; push_cast; omega
    · have hnone : l.find? (fun a => decide (index a = start)) = none := by
        rw [List.find?_eq_none]
        intro a ha hat
        have hafter := hbefore a ha
        have hindex : index a = start := of_decide_eq_true hat
        omega
      rw [hnone] at hrest
      rw [List.find?_cons_of_neg, hnone]
      · rw [Option.toList_none, List.nil_append] at hrest ⊢
        by_cases hin : index b < start + ((n + 1 : ℕ) : ℤ)
        · rw [List.filter_cons_of_pos, List.filter_cons_of_pos, hrest]
          · simp only [decide_eq_true_eq]; push_cast at hin; omega
          · simp only [decide_eq_true_eq]; omega
        · rw [List.filter_cons_of_neg, List.filter_cons_of_neg, hrest]
          · simp only [decide_eq_true_eq]; push_cast at hin; omega
          · simp only [decide_eq_true_eq]; omega
      · simp only [decide_eq_true_eq]; omega

theorem length_inWindow_le (h : l.Pairwise fun a b => index a < index b) (start : ℤ) (n : ℕ) :
    (inWindow index l start n).length ≤ n := by
  induction n generalizing start with
  | zero =>
    have hempty : inWindow index l start 0 = [] := by
      rw [inWindow, List.filter_eq_nil_iff]
      intro a ha
      simp only [decide_eq_true_eq]
      push_cast
      omega
    rw [hempty]
    exact le_refl 0
  | succ n ih =>
    rw [inWindow_succ h, List.length_append]
    have hhead : (cellOf index l start).toList.length ≤ 1 := Option.length_toList_le
    have htail := ih (start + 1)
    omega

/-- **The values in a window are the window, exactly when there are enough of them.** -/
theorem window_cell (h : l.Pairwise fun a b => index a < index b) (start : ℤ) (n : ℕ) :
    window (cellOf index l) start n
      = if (inWindow index l start n).length = n then some (inWindow index l start n)
        else none := by
  induction n generalizing start with
  | zero =>
    have hempty : (inWindow index l start 0).length = 0 :=
      Nat.le_zero.mp (length_inWindow_le h start 0)
    rw [if_pos hempty, List.eq_nil_of_length_eq_zero hempty]
    rfl
  | succ n ih =>
    have htail := length_inWindow_le h (start + 1) n
    rw [inWindow_succ h, window_succ, ih (start + 1)]
    cases cellOf index l start with
    | none =>
      have hshort : (inWindow index l (start + 1) n).length ≠ n + 1 := by omega
      rw [Option.toList_none, List.nil_append, if_neg hshort]
      rfl
    | some a =>
      by_cases hfull : (inWindow index l (start + 1) n).length = n
      · rw [if_pos hfull, if_pos (by simp [hfull])]
        rfl
      · rw [if_neg hfull, if_neg (by simp [hfull])]
        rfl

end TraderStack.Lib
