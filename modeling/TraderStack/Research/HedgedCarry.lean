import TraderStack.Lib.Spells
import TraderStack.Lib.Trailing
import TraderStack.Research.Indicators

/-!
# Hedged carry on a funding tape (funding_carry.py)

A hedged position collects the magnitude of each funding rate while it is held, pays its legs
whenever it is entered or left, and earns the moves of the basis it can see.

- `hedgedState`: the loop's state after the prints of a tape;
- `hedgedCarryPerPrint`: what the loop returns.
-/

namespace TraderStack

open Lib

/-- A funding or basis tape: readings with their times, oldest first. -/
abbrev Tape := List (Time × ℚ)

/-- `utc_day_open` (funding_carry.py:416–417). -/
def utcDayOpen (ts : Time) : Time := 86400 * utcDate ts

/-- `{utc_day_open(ts): value for ts, value in (basis or ())}`. -/
def basisByTs (basis : Option Tape) : Dict Time ℚ :=
  Dict.ofList ((basis.getD []).map fun e => (utcDayOpen e.1, e.2))

/-- `Z_LOOKBACK`. -/
def zLookback : ℕ := 20

/-- `CARRY_LEGS`. -/
def carryLegs : ℤ := 2

/-- What the harvesting of a tape depends on besides the tape: the thresholds, and what each
leg costs. `sqrt` is `math.sqrt`. -/
structure CarryArgs where
  sqrt : ℚ → ℚ
  absThreshold : Option ℚ
  zThreshold : Option ℚ
  feeBps : ℚ
  slippageBps : ℚ
  legs : ℤ

/-- `_open_cost` (fund_z_flipcost.py:123–124), and the cost of a flip in either engine. -/
def openCost (feeBps slippageBps : ℚ) (legs : ℤ) : ℚ := legs * (feeBps + slippageBps) / 10000

/-- The cost of a flip. -/
def CarryArgs.cost (args : CarryArgs) : ℚ := openCost args.feeBps args.slippageBps args.legs

/-- `_want_harvest` (funding_carry.py:686–704). -/
def wantHarvest (sqrt : ℚ → ℚ) (absThreshold zThreshold : Option ℚ) (history : List ℚ) : Bool :=
  match history.getLast? with
  | none => false
  | some last =>
    if absThreshold.any fun threshold => |last| < threshold then false
    else
      match zThreshold with
      | none => true
      | some threshold =>
        if history.length < zLookback then false
        else
          let window := history.drop (history.length - zLookback)
          !decide (|zscore sqrt (window.getLast?.getD 0) window| < threshold)

/-- The loop's variables. -/
structure CarryState where
  position : Bool
  flips : ℕ
  basisDays : ℕ
  prevBasis : Option ℚ
  perPrint : List ℚ

/-- Before the first print. -/
def CarryState.start : CarryState := ⟨false, 0, 0, none, []⟩

/-- The basis part of a print through which the position is held: its PnL, whether it had
one, and the basis to remember. -/
def basisLeg (prevBasis currentBasis : Option ℚ) : ℚ × ℕ × Option ℚ :=
  match prevBasis, currentBasis with
  | some prev, some current => (prev - current, 1, some current)
  | none, some current => (0, 0, some current)
  | prev, none => (0, 0, prev)

/-- One print of `_hedged_carry_per_print` (funding_carry.py:736–756), given the rates of the
prints before it. -/
def CarryState.print (args : CarryArgs) (basis : Dict Time ℚ) (history : List ℚ) (s : CarryState)
    (print : Time × ℚ) : CarryState :=
  let want := wantHarvest args.sqrt args.absThreshold args.zThreshold history
  let flip := want != s.position
  let fee := if flip then args.cost else 0
  let flips := if flip then s.flips + 1 else s.flips
  if want then
    let leg := basisLeg s.prevBasis (basis.get? (utcDayOpen print.1))
    ⟨want, flips, s.basisDays + leg.2.1, leg.2.2, s.perPrint ++ [|print.2| - fee + leg.1]⟩
  else
    -- out of the market, the last basis stays remembered
    ⟨want, flips, s.basisDays, s.prevBasis, s.perPrint ++ [0 - fee + 0]⟩

/-- The prints of a tape, after those that a state has seen. -/
def CarryState.prints (args : CarryArgs) (basis : Dict Time ℚ) :
    List ℚ → Tape → CarryState → CarryState
  | _, [], s => s
  | history, print :: rest, s =>
    prints args basis (history ++ [print.2]) rest (s.print args basis history print)

/-- The state after the prints of a tape. -/
def hedgedState (args : CarryArgs) (basis : Option Tape) (series : Tape) : CarryState :=
  CarryState.start.prints args (basisByTs basis) [] series

/-- `_hedged_carry_per_print` (funding_carry.py:714–757): the net of each print, the flips, and
the days with a basis move. -/
def hedgedCarryPerPrint (args : CarryArgs) (basis : Option Tape) (series : Tape) :
    List ℚ × ℕ × ℕ :=
  let s := hedgedState args basis series
  (s.perPrint, s.flips, s.basisDays)

/-! ## The loop, print by print -/

section

variable {args : CarryArgs}

theorem CarryState.prints_concat (basis : Dict Time ℚ) (history : List ℚ) (series : Tape)
    (print : Time × ℚ) (s : CarryState) :
    s.prints args basis history (series ++ [print])
      = (s.prints args basis history series).print args basis (history ++ series.map Prod.snd)
        print := by
  induction series generalizing history s with
  | nil => simp [prints]
  | cons first series ih =>
    rw [List.cons_append, prints, prints, ih, List.map_cons, List.append_assoc,
      List.singleton_append]

theorem hedgedState_concat (basis : Option Tape) (series : Tape) (print : Time × ℚ) :
    hedgedState args basis (series ++ [print])
      = (hedgedState args basis series).print args (basisByTs basis) (series.map Prod.snd) print :=
  CarryState.prints_concat _ [] series print _

theorem CarryState.position_print (basis : Dict Time ℚ) (history : List ℚ) (s : CarryState)
    (print : Time × ℚ) :
    (s.print args basis history print).position
      = wantHarvest args.sqrt args.absThreshold args.zThreshold history := by
  unfold CarryState.print
  dsimp only
  split <;> rfl

end

end TraderStack
