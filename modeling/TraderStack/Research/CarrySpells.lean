import TraderStack.Research.FlipCost

/-!
# Carry PnL and the spells it is earned in

Both carry engines collect rates while they hold, pay for flips, and earn basis moves. The
flip-cost engine forgets the basis when it leaves the market and earns in each holding spell
what the basis moved in it. The hedged engine keeps the basis it saw last, and its first basis
print after a re-entry also pays the move that happened while it was flat.

- `book_hedgedState`, `book_flipState`: either engine keeps an abstract book;
- `perPrint_foldl_next`: what the book's prints are;
- `carry_by_spell_iff`: when carry PnL belongs to its spell in both engines.
-/

namespace TraderStack

open Lib

/-! ## An abstract carry book -/

/-- A print as a carry engine meets it: whether it is harvested, its rate, and the basis of
its day. -/
structure CarryRow where
  harvested : Bool
  rate : ℚ
  basis : Option ℚ

/-- The print in the spells of the position. -/
def CarryRow.mark (row : CarryRow) : Option (Option ℚ) :=
  if row.harvested then some row.basis else none

/-- What an engine remembers that decides its nets. -/
structure CarryBook where
  position : Bool
  flips : ℕ
  prevBasis : Option ℚ
  perPrint : List ℚ

namespace CarryBook

/-- Income less fee: what a print pays apart from the basis. -/
def due (cost : ℚ) (position : Bool) (row : CarryRow) : ℚ :=
  (if row.harvested then |row.rate| else 0) - if row.harvested = position then 0 else cost

/-- One print. `forget` says whether a flat book forgets its last basis. -/
def next (cost : ℚ) (forget : Bool) (b : CarryBook) (row : CarryRow) : CarryBook where
  position := row.harvested
  flips := b.flips + if row.harvested = b.position then 0 else 1
  prevBasis :=
    if row.harvested then row.basis.or b.prevBasis else if forget then none else b.prevBasis
  perPrint := b.perPrint ++
    [due cost b.position row + if row.harvested then move b.prevBasis row.basis else 0]

/-- Before the first print. -/
def start : CarryBook := ⟨false, 0, none, []⟩

/-- What the prints pay apart from the basis. -/
def dues (cost : ℚ) : Bool → List CarryRow → List ℚ
  | _, [] => []
  | position, row :: rest => due cost position row :: dues cost row.harvested rest

/-- How often the position turns. -/
def turns : Bool → List CarryRow → ℕ
  | _, [] => 0
  | position, row :: rest => (if row.harvested = position then 0 else 1) + turns row.harvested rest

variable {cost : ℚ} {forget : Bool}

theorem length_dues (position : Bool) (rows : List CarryRow) :
    (dues cost position rows).length = rows.length := by
  induction rows generalizing position with
  | nil => rfl
  | cons row rows ih => rw [dues, List.length_cons, List.length_cons, ih]

theorem sum_dues (position : Bool) (rows : List CarryRow) :
    (dues cost position rows).sum
      = ((rows.filter (·.harvested)).map fun row => |row.rate|).sum
        - cost * turns position rows := by
  induction rows generalizing position with
  | nil => simp [dues, turns]
  | cons row rows ih =>
    rw [dues, turns, List.sum_cons, ih, due]
    have hincome : (((row :: rows).filter (·.harvested)).map fun row => |row.rate|).sum
        = (if row.harvested then |row.rate| else 0)
          + ((rows.filter (·.harvested)).map fun row => |row.rate|).sum := by
      cases h : row.harvested <;> simp [h]
    rw [hincome]
    by_cases hturn : row.harvested = position
    · rw [if_pos hturn, if_pos hturn]
      push_cast
      ring
    · rw [if_neg hturn, if_neg hturn]
      push_cast
      ring

/-- **The prints of a book** are what is due and what the basis moved. -/
theorem perPrint_foldl_next (b : CarryBook) (rows : List CarryRow) :
    (rows.foldl (next cost forget) b).perPrint
      = b.perPrint ++ List.zipWith (· + ·) (dues cost b.position rows)
          (moves forget b.prevBasis (rows.map CarryRow.mark)) := by
  induction rows generalizing b with
  | nil => simp [dues, moves]
  | cons row rows ih =>
    rw [List.foldl_cons, ih, dues, List.map_cons]
    cases h : row.harvested with
    | false => simp [next, CarryRow.mark, moves, h]
    | true => simp [next, CarryRow.mark, moves, h]

theorem flips_foldl_next (b : CarryBook) (rows : List CarryRow) :
    (rows.foldl (next cost forget) b).flips = b.flips + turns b.position rows := by
  induction rows generalizing b with
  | nil => rfl
  | cons row rows ih =>
    rw [List.foldl_cons, ih, turns, next, Nat.add_assoc]

theorem sum_perPrint (rows : List CarryRow) :
    (rows.foldl (next cost forget) start).perPrint.sum
      = ((rows.filter (·.harvested)).map fun row => |row.rate|).sum
        - cost * (rows.foldl (next cost forget) start).flips
        + (moves forget none (rows.map CarryRow.mark)).sum := by
  have hlength : (dues cost false rows).length
      = (moves forget none (rows.map CarryRow.mark)).length := by
    rw [length_dues, length_moves, List.length_map]
  rw [perPrint_foldl_next, flips_foldl_next, start, List.nil_append, Nat.zero_add, ← sum_dues,
    List.sum_add_sum_eq_sum_zipWith_of_length_eq _ _ hlength]

theorem zipWith_add_cancel {xs ys zs : List ℚ} (hy : ys.length = xs.length)
    (hz : zs.length = xs.length) :
    List.zipWith (· + ·) xs ys = List.zipWith (· + ·) xs zs ↔ ys = zs := by
  induction xs generalizing ys zs with
  | nil =>
    rw [List.length_eq_zero_iff.mp hy, List.length_eq_zero_iff.mp hz]
    exact iff_of_true rfl rfl
  | cons x xs ih =>
    obtain ⟨y, ys, rfl⟩ := List.exists_cons_of_length_eq_add_one hy
    obtain ⟨z, zs, rfl⟩ := List.exists_cons_of_length_eq_add_one hz
    rw [List.zipWith_cons_cons, List.zipWith_cons_cons, List.cons.injEq, List.cons.injEq,
      add_right_inj, ih (by simpa using hy) (by simpa using hz)]

variable (cost) in
/-- A book that remembers and one that forgets agree on every print exactly when no basis
moved between two spells. -/
theorem perPrint_keep_eq_iff (rows : List CarryRow) :
    (rows.foldl (next cost true) start).perPrint = (rows.foldl (next cost false) start).perPrint ↔
      ∀ gap ∈ gaps none false (rows.map CarryRow.mark), gap = 0 := by
  rw [perPrint_foldl_next, perPrint_foldl_next, start, List.nil_append, List.nil_append,
    zipWith_add_cancel, eq_comm, moves_keep_eq_iff]
  · rw [length_dues, length_moves, List.length_map]
  · rw [length_dues, length_moves, List.length_map]

end CarryBook

/-! ## The two engines keep it -/

/-- The prints of a tape after those seen, as an engine that holds through a print when
`held` says so meets them. -/
def carryRows (basis : Option Tape) (held : Tape → Bool) : Tape → Tape → List CarryRow
  | _, [] => []
  | seen, print :: rest =>
    ⟨held (seen ++ [print]), print.2, (basisByTs basis).get? (utcDayOpen print.1)⟩
      :: carryRows basis held (seen ++ [print]) rest

/-- Whether `_hedged_carry_per_print` holds through the last print of a tape. -/
def hedgedHeld (args : CarryArgs) (basis : Option Tape) (tape : Tape) : Bool :=
  (hedgedState args basis tape).position

/-- Whether `_flipcost_per_print` does. -/
def flipHeld (args : FlipArgs) (basis : Option Tape) (tape : Tape) : Bool :=
  match flipState args basis tape with
  | .ok s => s.position
  | .error _ => false

theorem basisLeg_fst (prev current : Option ℚ) : (basisLeg prev current).1 = move prev current := by
  cases prev <;> cases current <;> rfl

theorem basisLeg_memory (prev current : Option ℚ) :
    (basisLeg prev current).2.2 = current.or prev := by
  cases prev <;> cases current <;> rfl

/-- The book of a hedged state. -/
def CarryState.book (s : CarryState) : CarryBook := ⟨s.position, s.flips, s.prevBasis, s.perPrint⟩

/-- The book of a flip-cost state. -/
def FlipState.book (s : FlipState) : CarryBook := ⟨s.position, s.flips, s.prevBasis, s.perPrint⟩

section

variable {args : CarryArgs} {flip : FlipArgs}

theorem book_print (basis : Dict Time ℚ) (history : List ℚ) (s : CarryState) (print : Time × ℚ) :
    (s.print args basis history print).book
      = s.book.next args.cost false
        ⟨wantHarvest args.sqrt args.absThreshold args.zThreshold history, print.2,
          basis.get? (utcDayOpen print.1)⟩ := by
  unfold CarryState.print CarryBook.next CarryState.book CarryBook.due
  generalize wantHarvest args.sqrt args.absThreshold args.zThreshold history = want
  cases want <;> cases s.position <;> simp [basisLeg_fst, basisLeg_memory]

theorem book_hedged_after (basis : Option Tape) (seen rest : Tape) :
    (hedgedState args basis (seen ++ rest)).book
      = (carryRows basis (hedgedHeld args basis) seen rest).foldl (CarryBook.next args.cost false)
        (hedgedState args basis seen).book := by
  induction rest generalizing seen with
  | nil =>
    rw [List.append_nil]
    rfl
  | cons print rest ih =>
    have hstep : (hedgedState args basis (seen ++ [print])).book
        = (hedgedState args basis seen).book.next args.cost false
          ⟨hedgedHeld args basis (seen ++ [print]), print.2,
            (basisByTs basis).get? (utcDayOpen print.1)⟩ := by
      rw [hedgedHeld, hedgedState_concat, book_print, CarryState.position_print]
    rw [carryRows, List.foldl_cons, ← hstep, ← ih, List.append_assoc, List.singleton_append]

/-- **The hedged engine** keeps the book that remembers. -/
theorem book_hedgedState (basis : Option Tape) (series : Tape) :
    (hedgedState args basis series).book
      = (carryRows basis (hedgedHeld args basis) [] series).foldl (CarryBook.next args.cost false)
        CarryBook.start :=
  book_hedged_after basis [] series

/-- A flat state has forgotten its basis. -/
def FlipState.Forgotten (s : FlipState) : Prop := s.position = false → s.prevBasis = none

theorem FlipState.prevBasis_turned {s : FlipState} (h : s.Forgotten) (want : Bool) :
    (s.turned want).prevBasis = if want then s.prevBasis else none := by
  unfold turned
  cases want with
  | false =>
    cases hposition : s.position with
    | false => simpa [hposition] using h hposition
    | true => simp
  | true => cases hposition : s.position <;> simp

theorem FlipState.flips_turned (s : FlipState) (want : Bool) :
    (s.turned want).flips = s.flips + if want = s.position then 0 else 1 := by
  unfold turned
  cases want <;> cases s.position <;> simp

theorem FlipState.book_print {basis : Dict Time ℚ} {history : List ℚ} {s s' : FlipState}
    {p : Time × ℚ} (hforgotten : s.Forgotten) (h : s.print flip basis history p = .ok s') :
    s'.Forgotten ∧
      s'.book = s.book.next flip.cost true ⟨s'.position, p.2, basis.get? (utcDayOpen p.1)⟩ := by
  obtain ⟨raw, -, rfl⟩ := FlipState.print_ok h
  generalize s.want flip raw = want
  have hbasis := FlipState.prevBasis_turned hforgotten want
  have hflips := FlipState.flips_turned s want
  rw [FlipState.position_paid, FlipState.position_turned]
  cases want with
  | false =>
    -- leaving, or staying out: nothing is collected and the basis is forgotten
    have hflat : (s.turned false).position = false := FlipState.position_turned _ _
    constructor
    · intro _
      simpa [FlipState.paid, hflat] using hbasis
    · unfold CarryBook.next FlipState.book CarryBook.due
      cases hposition : s.position <;> simp_all [FlipState.paid]
  | true =>
    have hheld : (s.turned true).position = true := FlipState.position_turned _ _
    constructor
    · intro hflat
      rw [FlipState.position_paid, hheld] at hflat
      cases hflat
    · unfold CarryBook.next FlipState.book CarryBook.due
      cases hposition : s.position <;>
        simp_all [FlipState.paid, basisLeg_fst, basisLeg_memory]

theorem flipHeld_of_ok {basis : Option Tape} {tape : Tape} {s : FlipState}
    (h : flipState flip basis tape = .ok s) : flipHeld flip basis tape = s.position := by
  rw [flipHeld, h]

theorem book_flip_after (basis : Option Tape) (seen rest : Tape) {s s' : FlipState}
    (hs : flipState flip basis seen = .ok s) (hforgotten : s.Forgotten)
    (hs' : flipState flip basis (seen ++ rest) = .ok s') :
    s'.book = (carryRows basis (flipHeld flip basis) seen rest).foldl
      (CarryBook.next flip.cost true) s.book := by
  induction rest generalizing seen s with
  | nil =>
    rw [List.append_nil, hs] at hs'
    cases hs'
    rfl
  | cons p rest ih =>
    rw [← List.singleton_append, ← List.append_assoc] at hs'
    obtain ⟨s₁, hs₁⟩ : ∃ s₁, flipState flip basis (seen ++ [p]) = .ok s₁ := by
      clear ih
      induction rest using List.reverseRecOn generalizing s' with
      | nil =>
        rw [List.append_nil] at hs'
        exact ⟨s', hs'⟩
      | append_singleton rest q ih =>
        rw [← List.append_assoc] at hs'
        obtain ⟨s₂, hs₂, -⟩ := flipState_ok_concat hs'
        exact ih hs₂
    obtain ⟨s₀, hs₀, hprint⟩ := flipState_ok_concat hs₁
    cases hs.symm.trans hs₀
    obtain ⟨hforgotten₁, hbook⟩ := FlipState.book_print hforgotten hprint
    rw [carryRows, List.foldl_cons, flipHeld_of_ok hs₁, ← hbook]
    exact ih (seen ++ [p]) hs₁ hforgotten₁ hs'

/-- **The flip-cost engine** keeps the book that forgets. -/
theorem book_flipState {basis : Option Tape} {series : Tape} {s : FlipState}
    (h : flipState flip basis series = .ok s) :
    s.book = (carryRows basis (flipHeld flip basis) [] series).foldl
      (CarryBook.next flip.cost true) CarryBook.start :=
  book_flip_after basis [] series rfl (fun _ => rfl) h

end

/-! ## What is harvested -/

/-- Whether a print is harvested depends on the rates before it only, not on its own, on
times, or on the basis. -/
def DecidesOnEarlier (held : Option Tape → Tape → Bool) : Prop :=
  ∀ basis basis' (before before' : Tape) print print',
    before.map Prod.snd = before'.map Prod.snd →
      held basis (before ++ [print]) = held basis' (before' ++ [print'])

section

variable {args : CarryArgs} {flip : FlipArgs}

theorem hedgedHeld_concat (basis : Option Tape) (before : Tape) (print : Time × ℚ) :
    hedgedHeld args basis (before ++ [print])
      = wantHarvest args.sqrt args.absThreshold args.zThreshold (before.map Prod.snd) := by
  rw [hedgedHeld, hedgedState_concat, CarryState.position_print]

theorem hedgedHeld_decidesOnEarlier (args : CarryArgs) : DecidesOnEarlier (hedgedHeld args) := by
  intro basis basis' before before' print print' h
  rw [hedgedHeld_concat, hedgedHeld_concat, h]

/-- The part of a flip-cost state that decisions look at. -/
def FlipState.hold (s : FlipState) : Bool × ℕ := (s.position, s.held)

theorem FlipState.hold_print {basis basis' : Dict Time ℚ} {history : List ℚ} {s s' : FlipState}
    (h : s.hold = s'.hold) (p p' : Time × ℚ) :
    (s.print flip basis history p).map hold = (s'.print flip basis' history p').map hold := by
  obtain ⟨hposition, hheld⟩ := Prod.mk.inj h
  unfold FlipState.print
  cases wantRaw flip.mode flip.nDays flip.cost history with
  | error e => rfl
  | ok raw =>
    have hwant : s.want flip raw = s'.want flip raw := by
      rw [FlipState.want, FlipState.want, hposition, hheld]
    show Except.ok (hold _) = Except.ok (hold _)
    dsimp only
    rw [hwant]
    generalize s'.want flip raw = want
    have hturned : (s.turned want).hold = (s'.turned want).hold := by
      unfold FlipState.turned FlipState.hold
      rw [hposition, hheld]
      split
      · rfl
      · split <;> simp [hposition, hheld]
    have hpaid : ∀ (b : Dict Time ℚ) (fee : ℚ) (q : Time × ℚ) (t : FlipState),
        (t.paid b fee q).hold = t.hold := by
      intro b fee q t
      rw [hold, FlipState.position_paid, FlipState.held_paid, hold]
    rw [hpaid, hpaid, hturned]

theorem hold_flipState {basis basis' : Option Tape} {tape tape' : Tape}
    (h : tape.map Prod.snd = tape'.map Prod.snd) :
    (flipState flip basis tape).map FlipState.hold
      = (flipState flip basis' tape').map FlipState.hold := by
  induction tape using List.reverseRecOn generalizing tape' with
  | nil =>
    rw [List.map_nil, eq_comm, List.map_eq_nil_iff] at h
    rw [h]
    rfl
  | append_singleton tape p ih =>
    rcases List.eq_nil_or_concat tape' with rfl | ⟨before, p', rfl⟩
    · simp at h
    rw [List.concat_eq_append] at h ⊢
    rw [List.map_append, List.map_append] at h
    obtain ⟨hbefore, -⟩ := List.append_inj' h rfl
    have hrest := ih hbefore
    rw [flipState_concat, flipState_concat, hbefore]
    cases hs : flipState flip basis tape with
    | error e =>
      cases hs' : flipState flip basis' before with
      | error e' =>
        rw [hs, hs'] at hrest
        cases hrest
        rfl
      | ok s' =>
        rw [hs, hs'] at hrest
        cases hrest
    | ok s =>
      cases hs' : flipState flip basis' before with
      | error e' =>
        rw [hs, hs'] at hrest
        cases hrest
      | ok s' =>
        rw [hs, hs'] at hrest
        exact FlipState.hold_print (Except.ok.inj hrest) p p'

theorem flipHeld_eq (basis : Option Tape) (tape : Tape) :
    flipHeld flip basis tape
      = match (flipState flip basis tape).map FlipState.hold with
        | .ok hold => hold.1
        | .error _ => false := by
  unfold flipHeld
  cases flipState flip basis tape <;> rfl

theorem flipHeld_decidesOnEarlier (flip : FlipArgs) : DecidesOnEarlier (flipHeld flip) := by
  intro basis basis' before before' print print' h
  rw [flipHeld_eq, flipHeld_eq]
  have hbefore : (flipState flip basis before).map FlipState.hold
      = (flipState flip basis' before').map FlipState.hold := hold_flipState h
  rw [flipState_concat, flipState_concat, h]
  cases hs : flipState flip basis before with
  | error e =>
    cases hs' : flipState flip basis' before' with
    | error e' => rfl
    | ok s' =>
      rw [hs, hs'] at hbefore
      cases hbefore
  | ok s =>
    cases hs' : flipState flip basis' before' with
    | error e' =>
      rw [hs, hs'] at hbefore
      cases hbefore
    | ok s' =>
      rw [hs, hs'] at hbefore
      have hlast : (s.print flip (basisByTs basis) (before'.map Prod.snd) print).map
            FlipState.hold
          = (s'.print flip (basisByTs basis') (before'.map Prod.snd) print').map FlipState.hold :=
        FlipState.hold_print (Except.ok.inj hbefore) print print'
      rw [Except.bind, Except.bind, hlast]

/-- The prints of a tape in the spells of the hedged engine's harvesting rule: whether the
rates before a print have it harvested, and the basis of its day. -/
def harvestMarks (args : CarryArgs) (basis : Option Tape) :
    List ℚ → Tape → List (Option (Option ℚ))
  | _, [] => []
  | history, print :: rest =>
    (if wantHarvest args.sqrt args.absThreshold args.zThreshold history then
      some ((basisByTs basis).get? (utcDayOpen print.1)) else none)
      :: harvestMarks args basis (history ++ [print.2]) rest

theorem map_mark_carryRows (basis : Option Tape) (seen rest : Tape) :
    (carryRows basis (hedgedHeld args basis) seen rest).map CarryRow.mark
      = harvestMarks args basis (seen.map Prod.snd) rest := by
  induction rest generalizing seen with
  | nil => rfl
  | cons print rest ih =>
    rw [carryRows, harvestMarks, List.map_cons, ih, CarryRow.mark, hedgedHeld_concat,
      List.map_append, List.map_cons, List.map_nil]

end

/-! ## Carry PnL by spell -/

/-- The nets of a tape add up to the rates of its harvested prints, less the cost of the flips,
plus what the basis moved in each spell. -/
def EarnedInSpells (cost : ℚ) (basis : Option Tape) (held : Tape → Bool) (series : Tape)
    (nets : List ℚ) (flips : ℕ) : Prop :=
  nets.sum
    = (((carryRows basis held [] series).filter (·.harvested)).map fun row => |row.rate|).sum
      - cost * flips
      + ((spells ((carryRows basis held [] series).map CarryRow.mark)).map
          fun spell => drift spell.reduceOption).sum

/-- The flip-cost engine, entered when the rates of `n` days pay for it, at the same costs. -/
def CarryArgs.magnitude (args : CarryArgs) (n : ℤ) : FlipArgs where
  mode := .magnitude
  nDays := some n
  sticky := false
  feeBps := args.feeBps
  slippageBps := args.slippageBps
  legs := args.legs

/-- The hedged engine with `abs_threshold` the open cost over `n`. -/
def CarryArgs.perDays (args : CarryArgs) (n : ℤ) : CarryArgs :=
  { args with absThreshold := some (args.cost / n), zThreshold := none }

/-- Carry PnL belongs to its spell on a tape, in both engines. -/
structure CarryBySpell (args : CarryArgs) (flip : FlipArgs) (basis : Option Tape)
    (series : Tape) : Prop where
  hedgedDecides : DecidesOnEarlier (hedgedHeld args)
  flipDecides : DecidesOnEarlier (flipHeld flip)
  hedgedNets : EarnedInSpells args.cost basis (hedgedHeld args basis) series
    (hedgedCarryPerPrint args basis series).1 (hedgedCarryPerPrint args basis series).2.1
  flipNets : ∀ nets flips basisDays meanHold,
    flipcostPerPrint flip basis series = .ok (nets, flips, basisDays, meanHold) →
      EarnedInSpells flip.cost basis (flipHeld flip basis) series nets flips
  sameNets : ∀ n : ℤ, 1 ≤ n → ∃ result,
    flipcostPerPrint (args.magnitude n) basis series = .ok result ∧
      result.1 = (hedgedCarryPerPrint (args.perDays n) basis series).1

section

variable {args : CarryArgs} {flip : FlipArgs} {basis : Option Tape} {series : Tape}

/-- The hedged engine's nets are earned in its spells exactly when what the basis moved
between them cancels. -/
theorem hedgedNets_iff :
    EarnedInSpells args.cost basis (hedgedHeld args basis) series
        (hedgedCarryPerPrint args basis series).1 (hedgedCarryPerPrint args basis series).2.1 ↔
      (gaps none false (harvestMarks args basis [] series)).sum = 0 := by
  have hbook : (hedgedState args basis series).book = _ := book_hedgedState basis series
  have hnets : (hedgedCarryPerPrint args basis series).1
      = ((carryRows basis (hedgedHeld args basis) [] series).foldl
          (CarryBook.next args.cost false) CarryBook.start).perPrint :=
    congrArg CarryBook.perPrint hbook
  have hflips : (hedgedCarryPerPrint args basis series).2.1
      = ((carryRows basis (hedgedHeld args basis) [] series).foldl
          (CarryBook.next args.cost false) CarryBook.start).flips :=
    congrArg CarryBook.flips hbook
  have hmarks : (carryRows basis (hedgedHeld args basis) [] series).map CarryRow.mark
      = harvestMarks args basis [] series := map_mark_carryRows basis [] series
  rw [EarnedInSpells, hnets, hflips, CarryBook.sum_perPrint, hmarks, sum_moves_keep, ← add_assoc]
  exact add_eq_left

theorem flipNets_earned {nets : List ℚ} {flips basisDays : ℕ} {meanHold : ℚ}
    (h : flipcostPerPrint flip basis series = .ok (nets, flips, basisDays, meanHold)) :
    EarnedInSpells flip.cost basis (flipHeld flip basis) series nets flips := by
  unfold flipcostPerPrint at h
  cases hs : flipState flip basis series with
  | error e =>
    rw [hs] at h
    cases h
  | ok s =>
    rw [hs] at h
    cases h
    have hbook := book_flipState hs
    have hnets : s.perPrint = _ := congrArg CarryBook.perPrint hbook
    have hflips : s.flips = _ := congrArg CarryBook.flips hbook
    rw [EarnedInSpells, hnets, hflips, CarryBook.sum_perPrint, sum_moves_forget]

/-! ### One rule in two spellings -/

theorem wantRaw_magnitude {n : ℤ} (hn : 1 ≤ n) (history : List ℚ) :
    wantRaw .magnitude (some n) args.cost history
      = .ok (wantHarvest args.sqrt (some (args.cost / n)) none history) := by
  unfold wantRaw wantHarvest
  cases history.getLast? with
  | none => rfl
  | some last =>
    have hpos : (0 : ℚ) < n := by exact_mod_cast hn
    dsimp only
    rw [if_pos (by omega)]
    congr 1
    by_cases h : args.cost ≤ n * |last|
    · have hle : args.cost / n ≤ |last| := (div_le_iff₀' hpos).mpr h
      simp [h, hle]
    · have hlt : |last| < args.cost / n := (lt_div_iff₀' hpos).mpr (not_le.mp h)
      simp [h, hlt]

/-- Both engines hold through the same prints. -/
theorem exists_flipState_magnitude {n : ℤ} (hn : 1 ≤ n) (basis : Option Tape) (tape : Tape) :
    ∃ s, flipState (args.magnitude n) basis tape = .ok s ∧
      s.position = hedgedHeld (args.perDays n) basis tape := by
  induction tape using List.reverseRecOn with
  | nil => exact ⟨FlipState.start, rfl, rfl⟩
  | append_singleton tape p ih =>
    obtain ⟨s, hs, -⟩ := ih
    have hraw : wantRaw (args.magnitude n).mode (args.magnitude n).nDays (args.magnitude n).cost
        (tape.map Prod.snd) = _ := wantRaw_magnitude hn _
    have hwant : ∀ raw, s.want (args.magnitude n) raw = raw := by
      intro raw
      unfold FlipState.want
      have hhold : ¬(s.held : ℤ) < (args.magnitude n).minHold := by
        simp [FlipArgs.minHold, CarryArgs.magnitude]
      rw [if_neg hhold, ite_self]
    rw [flipState_concat, hs]
    show ∃ s', s.print (args.magnitude n) (basisByTs basis) (tape.map Prod.snd) p = .ok s' ∧ _
    unfold FlipState.print
    rw [hraw]
    refine ⟨_, rfl, ?_⟩
    rw [FlipState.position_paid, FlipState.position_turned, hwant, hedgedHeld_concat]
    rfl

theorem sameNets_iff {n : ℤ} (hn : 1 ≤ n) :
    (∃ result, flipcostPerPrint (args.magnitude n) basis series = .ok result ∧
        result.1 = (hedgedCarryPerPrint (args.perDays n) basis series).1) ↔
      ∀ gap ∈ gaps none false (harvestMarks (args.perDays n) basis [] series), gap = 0 := by
  obtain ⟨s, hs, -⟩ := exists_flipState_magnitude hn basis series
  have hheld : flipHeld (args.magnitude n) basis = hedgedHeld (args.perDays n) basis := by
    funext tape
    obtain ⟨s', hs', hposition⟩ := exists_flipState_magnitude hn basis tape
    rw [flipHeld_of_ok hs', hposition]
  have hflip : s.perPrint = _ := congrArg CarryBook.perPrint (book_flipState hs)
  have hhedged : (hedgedCarryPerPrint (args.perDays n) basis series).1 = _ :=
    congrArg CarryBook.perPrint (book_hedgedState basis series)
  have hmarks : (carryRows basis (hedgedHeld (args.perDays n) basis) [] series).map CarryRow.mark
      = harvestMarks (args.perDays n) basis [] series := map_mark_carryRows basis [] series
  have hsame := CarryBook.perPrint_keep_eq_iff args.cost
    (carryRows basis (hedgedHeld (args.perDays n) basis) [] series)
  rw [hheld] at hflip
  rw [← hmarks, ← hsame]
  unfold flipcostPerPrint
  rw [hs, hhedged]
  constructor
  · rintro ⟨_, ⟨⟩, h⟩
    exact hflip.symm.trans h
  · intro h
    exact ⟨_, rfl, hflip.trans h⟩

end

/-! ### A basis that moves between two spells -/

namespace Reentered

/-- Harvest from one basis point a day, at the default costs. -/
def args : CarryArgs := ⟨fun _ => 0, some (1 / 10000), none, 5, 5, carryLegs⟩

def flip : FlipArgs := ⟨.signHold, none, false, 5, 5, carryLegs⟩

/-- Four days: a rate worth harvesting, one that is not, and two that are. -/
def series : Tape :=
  [(0, 3 / 1000), (86400, 0), (2 * 86400, 3 / 1000), (3 * 86400, 3 / 1000)]

/-- A basis seen on the two days that are harvested. -/
def basis : Tape := [(86400, 5 / 1000), (3 * 86400, 1 / 1000)]

end Reentered

/-- **A flat day's move is booked.** The position is left on the third day and entered again on
the fourth, which is credited with what the basis moved in between. -/
theorem reentry_books_flat_move :
    ¬CarryBySpell Reentered.args Reentered.flip (some Reentered.basis) Reentered.series := by
  intro h
  have hgap := hedgedNets_iff.mp h.hedgedNets
  have hmoved : (gaps none false
      (harvestMarks Reentered.args (some Reentered.basis) [] Reentered.series)).sum ≠ 0 := by
    decide +kernel
  exact hmoved hgap

/-- **When carry PnL belongs to its spell.** The flip-cost engine's always does. The hedged
engine's does exactly when what the basis moved while it was flat, from the last value seen in
a spell to the first one seen in a later spell, adds up to nothing; and the two engines agree
print by print, entered at the same rates, exactly when there was no such move at all. -/
theorem carry_by_spell_iff (args : CarryArgs) (flip : FlipArgs) (basis : Option Tape)
    (series : Tape) :
    CarryBySpell args flip basis series ↔
      (gaps none false (harvestMarks args basis [] series)).sum = 0 ∧
        ∀ n : ℤ, 1 ≤ n →
          ∀ gap ∈ gaps none false (harvestMarks (args.perDays n) basis [] series), gap = 0 := by
  constructor
  · intro h
    exact ⟨hedgedNets_iff.mp h.hedgedNets, fun n hn => (sameNets_iff hn).mp (h.sameNets n hn)⟩
  · rintro ⟨hcancel, hstill⟩
    exact
      { hedgedDecides := hedgedHeld_decidesOnEarlier args
        flipDecides := flipHeld_decidesOnEarlier flip
        hedgedNets := hedgedNets_iff.mpr hcancel
        flipNets := fun _ _ _ _ h => flipNets_earned h
        sameNets := fun n hn => (sameNets_iff hn).mpr (hstill n hn) }

end TraderStack
