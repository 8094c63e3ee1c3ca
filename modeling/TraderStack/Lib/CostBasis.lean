import Mathlib.Algebra.Order.Field.Basic
import Mathlib.Tactic.FieldSimp
import Mathlib.Tactic.Ring
import Mathlib.Tactic.Positivity

/-!
# Average-cost inventory

The bookkeeping of a single holding at average cost: a purchase blends its
price into the average, a sale releases units at the average and realises the
difference to its price. Everything is stated over an arbitrary field (ordered
where signs matter), with the cost *value* `quantity * cost` as the measure:

- a purchase adds exactly what was paid to the value (`value_buy`);
- a sale removes exactly the released units at the average cost (`value_sell`),
  also when it empties the holding and the average is reset;
- hence proceeds split into released cost and realised gain (`proceeds_eq`).
-/

namespace TraderStack.Lib

universe u

variable {K : Type u} [Field K]

/-- Units held and their average cost. -/
@[ext] structure Lot (K : Type u) where
  quantity : K
  cost : K

namespace Lot

/-- What the held units cost. -/
def value (l : Lot K) : K := l.quantity * l.cost

/-- Buy `q` units at price `p`: the average is the cost-weighted mean. -/
def buy (l : Lot K) (q p : K) : Lot K :=
  ⟨l.quantity + q, (l.quantity * l.cost + q * p) / (l.quantity + q)⟩

/-- Sell `q` units: the average stays, and an emptied holding forgets it. -/
def sell [DecidableEq K] (l : Lot K) (q : K) : Lot K :=
  ⟨l.quantity - q, if l.quantity - q = 0 then 0 else l.cost⟩

/-- The gain realised by selling `q` units at price `p`. -/
def gain (l : Lot K) (q p : K) : K := q * (p - l.cost)

theorem value_buy (l : Lot K) {q : K} (p : K) (h : l.quantity + q ≠ 0) :
    (l.buy q p).value = l.value + q * p := by
  simp only [value, buy]
  field_simp

theorem value_sell [DecidableEq K] (l : Lot K) (q : K) :
    (l.sell q).value = l.value - q * l.cost := by
  simp only [value, sell]
  split
  · -- the holding is emptied: all of its cost is released
    rename_i h
    rw [mul_zero, ← sub_mul, h, zero_mul]
  · ring

theorem proceeds_eq (l : Lot K) (q p : K) : q * p = q * l.cost + l.gain q p := by
  simp only [gain]
  ring

theorem cost_sell_of_empty [DecidableEq K] (l : Lot K) {q : K} (h : (l.sell q).quantity = 0) :
    (l.sell q).cost = 0 :=
  if_pos h

section Ordered

variable [LinearOrder K]

theorem cost_sell_nonneg [DecidableEq K] {l : Lot K} (hc : 0 ≤ l.cost) (q : K) :
    0 ≤ (l.sell q).cost := by
  simp only [sell]
  split
  · exact le_rfl
  · exact hc

variable [IsStrictOrderedRing K]

theorem cost_buy_nonneg {l : Lot K} {q p : K} (hl : 0 ≤ l.quantity) (hc : 0 ≤ l.cost)
    (hq : 0 ≤ q) (hp : 0 ≤ p) : 0 ≤ (l.buy q p).cost := by
  simp only [buy]
  positivity

end Ordered

end Lot

end TraderStack.Lib
