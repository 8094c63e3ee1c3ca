import TraderStack.Research.HedgedCarry

/-!
# The flip-cost hold gate (fund_z_flipcost.py)

A near-copy of the hedged carry loop: it enters on another rule, may hold for a minimum number
of prints, and forgets the last basis when it leaves.

- `flipState`: the loop's state after the prints of a tape;
- `flipcostPerPrint`: what the loop returns.
-/

namespace TraderStack

open Lib

/-- The `mode` of a catalogue row. -/
inductive FlipMode where
  | magnitude
  | signHold
  | flat
deriving DecidableEq

/-- What `_flipcost_per_print` takes besides the tape and the basis. -/
structure FlipArgs where
  mode : FlipMode
  nDays : Option ℤ
  sticky : Bool
  feeBps : ℚ
  slippageBps : ℚ
  legs : ℤ

/-- `cost = _open_cost(fee_bps, slippage_bps, legs=legs)`. -/
def FlipArgs.cost (args : FlipArgs) : ℚ := openCost args.feeBps args.slippageBps args.legs

/-- `n_days if sticky and n_days is not None else 0`. -/
def FlipArgs.minHold (args : FlipArgs) : ℤ := if args.sticky then args.nDays.getD 0 else 0

/-- `_want_raw` (fund_z_flipcost.py:127–142), with its assertion. -/
def wantRaw (mode : FlipMode) (nDays : Option ℤ) (openCost : ℚ) (history : List ℚ) :
    Except ResearchError Bool :=
  match mode with
  | .flat => .ok false
  | .signHold => .ok !history.isEmpty
  | .magnitude =>
    match history.getLast? with
    | none => .ok false
    | some last =>
      match nDays with
      | none => .error (.fatal "AssertionError")
      | some n =>
        if 0 < n then .ok (decide (openCost ≤ n * |last|)) else .error (.fatal "AssertionError")

/-- The loop's variables. -/
structure FlipState where
  position : Bool
  flips : ℕ
  basisDays : ℕ
  prevBasis : Option ℚ
  held : ℕ
  holdLengths : List ℕ
  perPrint : List ℚ

namespace FlipState

/-- Before the first print. -/
def start : FlipState := ⟨false, 0, 0, none, 0, [], []⟩

/-- Whether the position is held through the next print: a sticky one is not left before
`min_hold` prints. -/
def want (args : FlipArgs) (s : FlipState) (raw : Bool) : Bool :=
  if s.position then if (s.held : ℤ) < args.minHold then true else raw else raw

/-- Entering or leaving, or holding on (fund_z_flipcost.py:178–187). -/
def turned (want : Bool) (s : FlipState) : FlipState :=
  if want != s.position then
    { s with
      flips := s.flips + 1
      holdLengths := if s.position && 0 < s.held then s.holdLengths ++ [s.held] else s.holdLengths
      position := want
      held := if want then 1 else 0
      prevBasis := if want then s.prevBasis else none }
  else if s.position then { s with held := s.held + 1 }
  else s

/-- What a print pays, given the fee of the turn before it (fund_z_flipcost.py:188–196). -/
def paid (basis : Dict Time ℚ) (fee : ℚ) (print : Time × ℚ) (s : FlipState) : FlipState :=
  if s.position then
    let leg := basisLeg s.prevBasis (basis.get? (utcDayOpen print.1))
    { s with
      basisDays := s.basisDays + leg.2.1
      prevBasis := leg.2.2
      perPrint := s.perPrint ++ [|print.2| - fee + leg.1] }
  else { s with perPrint := s.perPrint ++ [0 - fee + 0] }

/-- One print of `_flipcost_per_print`, given the rates of the prints before it. -/
def print (args : FlipArgs) (basis : Dict Time ℚ) (history : List ℚ) (s : FlipState)
    (print : Time × ℚ) : Except ResearchError FlipState :=
  (wantRaw args.mode args.nDays args.cost history).map fun raw =>
    let want := s.want args raw
    let fee := if want != s.position then args.cost else 0
    (s.turned want).paid basis fee print

/-- The prints of a tape, after those that a state has seen. -/
def prints (args : FlipArgs) (basis : Dict Time ℚ) :
    List ℚ → Tape → FlipState → Except ResearchError FlipState
  | _, [], s => .ok s
  | history, p :: rest, s =>
    (s.print args basis history p).bind (prints args basis (history ++ [p.2]) rest)

end FlipState

/-- The state after the prints of a tape. -/
def flipState (args : FlipArgs) (basis : Option Tape) (series : Tape) :
    Except ResearchError FlipState :=
  FlipState.start.prints args (basisByTs basis) [] series

/-- `_flipcost_per_print` (fund_z_flipcost.py:145–201): the net of each print, the flips, the
days with a basis move, and the mean hold. -/
def flipcostPerPrint (args : FlipArgs) (basis : Option Tape) (series : Tape) :
    Except ResearchError (List ℚ × ℕ × ℕ × ℚ) :=
  (flipState args basis series).map fun s =>
    let holdLengths := if s.position && 0 < s.held then s.holdLengths ++ [s.held] else s.holdLengths
    (s.perPrint, s.flips, s.basisDays, (holdLengths.sum : ℚ) / holdLengths.length)

/-! ## The loop, print by print -/

section

variable {args : FlipArgs} {basis : Dict Time ℚ} {history : List ℚ} {s s' : FlipState}
  {p : Time × ℚ}

@[simp] theorem FlipState.position_turned (want : Bool) (s : FlipState) :
    (s.turned want).position = want := by
  unfold turned
  cases want <;> cases h : s.position <;> simp [h]

@[simp] theorem FlipState.perPrint_turned (want : Bool) (s : FlipState) :
    (s.turned want).perPrint = s.perPrint := by
  unfold turned
  split
  · rfl
  · split <;> rfl

@[simp] theorem FlipState.position_paid (fee : ℚ) (s : FlipState) :
    (s.paid basis fee p).position = s.position := by
  unfold paid
  dsimp only
  split <;> rfl

@[simp] theorem FlipState.held_paid (fee : ℚ) (s : FlipState) :
    (s.paid basis fee p).held = s.held := by
  unfold paid
  dsimp only
  split <;> rfl

@[simp] theorem FlipState.flips_paid (fee : ℚ) (s : FlipState) :
    (s.paid basis fee p).flips = s.flips := by
  unfold paid
  dsimp only
  split <;> rfl

/-- What one print does: the rule is asked, the position turns, the print pays. -/
theorem FlipState.print_ok (h : s.print args basis history p = .ok s') :
    ∃ raw, wantRaw args.mode args.nDays args.cost history = .ok raw ∧
      s' = (s.turned (s.want args raw)).paid basis
        (if s.want args raw != s.position then args.cost else 0) p := by
  unfold FlipState.print at h
  cases hraw : wantRaw args.mode args.nDays args.cost history with
  | error e =>
    rw [hraw] at h
    cases h
  | ok raw =>
    rw [hraw] at h
    cases h
    exact ⟨raw, rfl, rfl⟩

theorem FlipState.prints_concat (basis : Dict Time ℚ) (history : List ℚ) (series : Tape)
    (p : Time × ℚ) (s : FlipState) :
    s.prints args basis history (series ++ [p])
      = (s.prints args basis history series).bind fun s' =>
        s'.print args basis (history ++ series.map Prod.snd) p := by
  induction series generalizing history s with
  | nil =>
    rw [List.nil_append, prints, prints, List.map_nil, List.append_nil]
    show _ = s.print args basis history p
    cases s.print args basis history p <;> rfl
  | cons first series ih =>
    rw [List.cons_append, prints, prints]
    cases s.print args basis history first with
    | error e => rfl
    | ok s' =>
      show s'.prints args basis (history ++ [first.2]) (series ++ [p]) = _
      rw [ih, List.map_cons, List.append_assoc, List.singleton_append]
      rfl

theorem flipState_concat (basis : Option Tape) (series : Tape) (p : Time × ℚ) :
    flipState args basis (series ++ [p])
      = (flipState args basis series).bind fun s =>
        s.print args (basisByTs basis) (series.map Prod.snd) p :=
  FlipState.prints_concat _ [] series p _

/-- A tape that is harvested to its end was so to each of its prints. -/
theorem flipState_ok_concat {basis : Option Tape} {series : Tape}
    (h : flipState args basis (series ++ [p]) = .ok s') :
    ∃ s, flipState args basis series = .ok s ∧
      s.print args (basisByTs basis) (series.map Prod.snd) p = .ok s' := by
  rw [flipState_concat] at h
  cases hs : flipState args basis series with
  | error e =>
    rw [hs] at h
    cases h
  | ok s =>
    rw [hs] at h
    exact ⟨s, rfl, h⟩

end

end TraderStack
