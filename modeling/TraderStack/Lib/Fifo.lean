import Mathlib.Algebra.Order.Field.Basic
import Mathlib.Tactic.Linarith
import Mathlib.Tactic.LinearCombination
import Mathlib.Tactic.Ring

/-!
# First in, first out

Sales are met from lots, the oldest first. A tolerance ends a sale: what is left of it
when no more than the tolerance is left is not met, and what is left of a lot is dropped
when it is no more than the tolerance. Each pair of a lot and a sale is recorded with
the amount that went from one to the other.

Everything is weighed at a value per unit, so that one law covers quantities, costs and
fees alike:

- `FifoBook.bought_sell`: a sale changes nothing of what was bought, taken as what was
  paired, is held or was dropped;
- `FifoBook.sold_sell`: it adds what was asked for to what was sold, taken as what was
  paired or is unmet.
-/

namespace TraderStack.Lib

variable {α : Type*} {K : Type*} [Field K] [LinearOrder K]

/-! ## Amounts and what they weigh -/

section Weigh

/-- What amounts come to, at a value per unit. -/
def weigh (v : α → K) (l : List (α × K)) : K := (l.map fun p => p.2 * v p.1).sum

variable {v w : α → K} {l m : List (α × K)}

omit [LinearOrder K]

@[simp] theorem weigh_nil : weigh v [] = 0 := rfl

@[simp] theorem weigh_cons (p : α × K) : weigh v (p :: l) = p.2 * v p.1 + weigh v l :=
  List.sum_cons

@[simp] theorem weigh_append : weigh v (l ++ m) = weigh v l + weigh v m := by
  unfold weigh
  rw [List.map_append, List.sum_append]

theorem weigh_sub : weigh (fun a => v a - w a) l = weigh v l - weigh w l := by
  induction l with
  | nil => simp
  | cons p l ih =>
    simp only [weigh_cons, ih]
    ring

theorem weigh_add : weigh (fun a => v a + w a) l = weigh v l + weigh w l := by
  induction l with
  | nil => simp
  | cons p l ih =>
    simp only [weigh_cons, ih]
    ring

theorem weigh_const (c : K) : weigh (fun _ : α => c) l = weigh (fun _ => 1) l * c := by
  induction l with
  | nil => simp
  | cons p l ih =>
    simp only [weigh_cons, ih]
    ring

/-- Amounts that are all zero weigh nothing. -/
theorem weigh_eq_zero (h : ∀ p ∈ l, p.2 = 0) : weigh v l = 0 := by
  induction l with
  | nil => rfl
  | cons p l ih =>
    rw [weigh_cons, h p List.mem_cons_self, ih fun q hq => h q (List.mem_cons_of_mem p hq)]
    ring

theorem weigh_map {β : Type*} {v : β → K} (f : α → β) :
    weigh v (l.map fun p => (f p.1, p.2)) = weigh (fun a => v (f a)) l := by
  simp [weigh, List.map_map, Function.comp_def]

end Weigh

theorem weigh_one_nonneg [IsStrictOrderedRing K] {l : List (α × K)} (h : ∀ p ∈ l, 0 ≤ p.2) :
    0 ≤ weigh (fun _ => 1) l := by
  induction l with
  | nil => simp
  | cons p l ih =>
    have hhead := h p List.mem_cons_self
    have htail := ih fun q hq => h q (List.mem_cons_of_mem p hq)
    simp only [weigh_cons, mul_one]
    linarith

/-- Amounts that are not negative come to nothing only if each is zero. -/
theorem all_zero_of_weigh [IsStrictOrderedRing K] {l : List (α × K)} (h : ∀ p ∈ l, 0 ≤ p.2)
    (hzero : weigh (fun _ => 1) l = 0) : ∀ p ∈ l, p.2 = 0 := by
  induction l with
  | nil => exact fun p hp => absurd hp List.not_mem_nil
  | cons q l ih =>
    have hhead := h q List.mem_cons_self
    have htail : ∀ p ∈ l, 0 ≤ p.2 := fun p hp => h p (List.mem_cons_of_mem q hp)
    have hrest := weigh_one_nonneg htail
    simp only [weigh_cons, mul_one] at hzero
    intro p hp
    rcases List.mem_cons.mp hp with rfl | hp
    · linarith
    · exact ih htail (by linarith) p hp

/-! ## One sale -/

/-- A sale's way through the lots. -/
structure Drawn (α K : Type*) where
  taken : List (α × K)
  held : List (α × K)
  dropped : List (α × K)
  unmet : K

/-- Draw an amount from the lots, the oldest first. -/
def draw (tol : K) : List (α × K) → K → Drawn α K
  | [], amount => ⟨[], [], [], amount⟩
  | (a, q) :: lots, amount =>
    if amount ≤ tol then ⟨[], (a, q) :: lots, [], amount⟩
    else if q - tol ≤ min q amount then
      let rest := draw tol lots (amount - min q amount)
      ⟨(a, min q amount) :: rest.taken, rest.held, (a, q - min q amount) :: rest.dropped,
        rest.unmet⟩
    else ⟨[(a, min q amount)], (a, q - min q amount) :: lots, [], amount - min q amount⟩

section Draw

variable {tol : K} {v : α → K}

/-- Nothing of the lots is lost: it is taken, held or dropped. -/
theorem weigh_draw (tol : K) (lots : List (α × K)) (amount : K) :
    weigh v (draw tol lots amount).taken + weigh v (draw tol lots amount).held
      + weigh v (draw tol lots amount).dropped = weigh v lots := by
  induction lots generalizing amount with
  | nil => simp [draw]
  | cons lot lots ih =>
    obtain ⟨a, q⟩ := lot
    simp only [draw]
    split
    · simp
    split
    · have hrest := ih (amount - min q amount)
      simp only [weigh_cons]
      linear_combination hrest
    · simp only [weigh_cons, weigh_nil]
      ring

/-- What was asked for was taken, or is unmet. -/
theorem taken_add_unmet (tol : K) (lots : List (α × K)) (amount : K) :
    weigh (fun _ => 1) (draw tol lots amount).taken + (draw tol lots amount).unmet = amount := by
  induction lots generalizing amount with
  | nil => simp [draw]
  | cons lot lots ih =>
    obtain ⟨a, q⟩ := lot
    simp only [draw]
    split
    · simp
    split
    · have hrest := ih (amount - min q amount)
      simp only [weigh_cons]
      linear_combination hrest
    · simp only [weigh_cons, weigh_nil]
      ring

variable [IsStrictOrderedRing K]

/-- What is held stays positive. -/
theorem draw_held_pos (htol : 0 ≤ tol) {lots : List (α × K)} (h : ∀ p ∈ lots, 0 < p.2)
    (amount : K) : ∀ p ∈ (draw tol lots amount).held, 0 < p.2 := by
  induction lots generalizing amount with
  | nil => exact fun p hp => absurd hp List.not_mem_nil
  | cons lot lots ih =>
    obtain ⟨a, q⟩ := lot
    have htail : ∀ p ∈ lots, 0 < p.2 := fun p hp => h p (List.mem_cons_of_mem _ hp)
    simp only [draw]
    split
    · exact h
    split
    · exact ih htail _
    · intro p hp
      rcases List.mem_cons.mp hp with rfl | hp
      · -- More than the tolerance is left of a lot that stays.
        have hleft : min q amount < q - tol := not_le.mp ‹_›
        show 0 < q - min q amount
        linarith
      · exact htail p hp

/-- What is dropped is never negative. -/
theorem draw_dropped_nonneg (lots : List (α × K)) (amount : K) :
    ∀ p ∈ (draw tol lots amount).dropped, 0 ≤ p.2 := by
  induction lots generalizing amount with
  | nil => exact fun p hp => absurd hp List.not_mem_nil
  | cons lot lots ih =>
    obtain ⟨a, q⟩ := lot
    simp only [draw]
    split
    · exact fun p hp => absurd hp List.not_mem_nil
    split
    · intro p hp
      rcases List.mem_cons.mp hp with rfl | hp
      · exact sub_nonneg.mpr (min_le_left q amount)
      · exact ih _ p hp
    · exact fun p hp => absurd hp List.not_mem_nil

end Draw

/-! ## The book -/

/-- The lots that are held, the pairs made of a lot and a sale, and what was dropped or is
unmet. -/
structure FifoBook (α K : Type*) where
  held : List (α × K)
  pairs : List ((α × α) × K)
  dropped : List (α × K)
  unmet : List (α × K)

namespace FifoBook

def empty : FifoBook α K := ⟨[], [], [], []⟩

def buy (b : FifoBook α K) (a : α) (amount : K) : FifoBook α K :=
  { b with held := b.held ++ [(a, amount)] }

def sell (tol : K) (b : FifoBook α K) (a : α) (amount : K) : FifoBook α K :=
  let drawn := draw tol b.held amount
  { held := drawn.held
    pairs := b.pairs ++ drawn.taken.map fun p => ((p.1, a), p.2)
    dropped := b.dropped ++ drawn.dropped
    unmet := b.unmet ++ [(a, drawn.unmet)] }

/-- What was bought: paired, held or dropped. -/
def bought (b : FifoBook α K) (v : α → K) : K :=
  weigh (fun p => v p.1) b.pairs + weigh v b.held + weigh v b.dropped

/-- What was sold: paired or unmet. -/
def sold (b : FifoBook α K) (v : α → K) : K :=
  weigh (fun p => v p.2) b.pairs + weigh v b.unmet

variable {b : FifoBook α K} {tol : K} {v : α → K} {a : α} {amount : K}

omit [LinearOrder K] in
@[simp] theorem bought_empty : (empty : FifoBook α K).bought v = 0 := by simp [bought, empty]

omit [LinearOrder K] in
@[simp] theorem sold_empty : (empty : FifoBook α K).sold v = 0 := by simp [sold, empty]

omit [LinearOrder K] in
@[simp] theorem bought_buy : (b.buy a amount).bought v = b.bought v + amount * v a := by
  simp only [bought, buy, weigh_append, weigh_cons, weigh_nil]
  ring

omit [LinearOrder K] in
@[simp] theorem sold_buy : (b.buy a amount).sold v = b.sold v := rfl

/-- **A sale loses nothing of what was bought.** -/
@[simp] theorem bought_sell : (b.sell tol a amount).bought v = b.bought v := by
  have hdrawn := @weigh_draw _ _ _ _ v tol b.held amount
  have hpairs : weigh (fun p : α × α => v p.1)
      ((draw tol b.held amount).taken.map fun p => ((p.1, a), p.2))
      = weigh v (draw tol b.held amount).taken :=
    weigh_map (v := fun p : α × α => v p.1) fun x => (x, a)
  simp only [bought, sell, weigh_append, hpairs]
  linear_combination hdrawn

/-- **A sale sells what was asked for**, met or not. -/
@[simp] theorem sold_sell : (b.sell tol a amount).sold v = b.sold v + amount * v a := by
  have hasked := taken_add_unmet tol b.held amount
  have hpairs : weigh (fun p : α × α => v p.2)
      ((draw tol b.held amount).taken.map fun p => ((p.1, a), p.2))
      = weigh (fun _ => 1) (draw tol b.held amount).taken * v a :=
    (weigh_map (v := fun p : α × α => v p.2) fun x => (x, a)).trans (weigh_const (v a))
  simp only [sold, sell, weigh_append, weigh_cons, weigh_nil, hpairs]
  linear_combination v a * hasked

/-- Lots are positive and nothing negative was dropped. -/
structure Sound (b : FifoBook α K) : Prop where
  held_pos : ∀ p ∈ b.held, 0 < p.2
  dropped_nonneg : ∀ p ∈ b.dropped, 0 ≤ p.2

theorem Sound.empty : (empty : FifoBook α K).Sound :=
  ⟨fun _ hp => absurd hp List.not_mem_nil, fun _ hp => absurd hp List.not_mem_nil⟩

theorem Sound.buy (h : b.Sound) (hpos : 0 < amount) : (b.buy a amount).Sound where
  held_pos p hp := by
    rcases List.mem_append.mp hp with hp | hp
    · exact h.held_pos p hp
    · rw [List.mem_singleton.mp hp]
      exact hpos
  dropped_nonneg := h.dropped_nonneg

variable [IsStrictOrderedRing K]

theorem Sound.sell (h : b.Sound) (htol : 0 ≤ tol) : (b.sell tol a amount).Sound where
  held_pos := draw_held_pos htol h.held_pos amount
  dropped_nonneg p hp := by
    rcases List.mem_append.mp hp with hp | hp
    · exact h.dropped_nonneg p hp
    · exact draw_dropped_nonneg b.held amount p hp

/-- **All that was bought is paired** exactly when no lot is held and only nothing was
dropped. -/
theorem Sound.paired_iff (h : b.Sound) :
    weigh (fun _ => 1) b.pairs = b.bought (fun _ => 1) ↔
      b.held = [] ∧ ∀ p ∈ b.dropped, p.2 = 0 := by
  have hheld := weigh_one_nonneg fun p hp => (h.held_pos p hp).le
  have hdropped := weigh_one_nonneg h.dropped_nonneg
  constructor
  · intro heq
    unfold bought at heq
    have hzero : weigh (fun _ => 1) b.held = 0 := by linarith
    refine ⟨?_, all_zero_of_weigh h.dropped_nonneg (by linarith)⟩
    refine List.eq_nil_iff_forall_not_mem.mpr fun p hp => ?_
    have hp0 := all_zero_of_weigh (fun p hp => (h.held_pos p hp).le) hzero p hp
    exact absurd (h.held_pos p hp) (by rw [hp0]; exact lt_irrefl 0)
  · rintro ⟨hempty, hnone⟩
    unfold bought
    rw [hempty, weigh_eq_zero hnone]
    simp

end FifoBook

end TraderStack.Lib
