import TraderStack.Execution.Ledger

/-!
# Venue payloads (reconcile.py, the row readers)

The JSON a venue search returns, as far as the reconciler reads it: an envelope
of rows, and scalar fields. The readers raise on what they cannot read, because
an unreadable body is unknown venue state, never "no orders".
-/

namespace TraderStack

open Lib

/-- A JSON value of a row. Nested objects and arrays are `compound`; the tokens
`NaN` and `Infinity`, which the parser admits, are `nonFinite`. -/
inductive Scalar where
  | null
  | bool (b : Bool)
  | num (x : ℚ)
  | nonFinite
  | str (s : String)
  | compound
deriving DecidableEq

/-- One venue row, `dict[str, object]`. -/
abbrev Row := Dict String Scalar

/-- A response body: a list of items, an object some of whose values are lists,
or something else. An item or a value that is not what is expected is `none`. -/
inductive Payload where
  | list (items : List (Option Row))
  | object (fields : Dict String (Option (List (Option Row))))
  | other

/-- Why a reader raised. -/
inductive RowError where
  | unexpectedEnvelope
  | unexpectedType
  | unexpectedRowType
  | missingText (keys : List String)
  | missingNumber (keys : List String)
  | nonFiniteNumber (keys : List String)
  | unsupportedSide (value : String)
deriving DecidableEq, Repr

/-- `all(isinstance(row, dict) for row in rows)`. -/
def dictRows (items : List (Option Row)) : Except RowError (List Row) :=
  match items.mapM id with
  | some rows => .ok rows
  | none => .error .unexpectedRowType

/-- `_rows` (reconcile.py:270–290). -/
def payloadRows : Payload → Except RowError (List Row)
  | .list items => dictRows items
  | .object fields =>
    match ["data", "orders", "trades"].findSome? fields.get? with
    | none => .error .unexpectedEnvelope
    | some none => .error .unexpectedEnvelope
    | some (some items) => dictRows items
  | .other => .error .unexpectedType

namespace Row

/-- `_text` with `required=False` (reconcile.py:326–341): the first non-empty
text, else the empty one. -/
def text (row : Row) : List String → String
  | [] => ""
  | key :: keys =>
    match row.get? key with
    | some (.str s) => if s = "" then text row keys else s
    | _ => text row keys

/-- `_text` (reconcile.py:327–338). -/
def requiredText (row : Row) (keys : List String) : Except RowError String :=
  if row.text keys = "" then .error (.missingText keys) else .ok (row.text keys)

/-- The number one field holds, if it holds one. -/
def fieldNumber : Scalar → Option Text.Number
  | .num x => some (.finite x)
  | .nonFinite => some .nonFinite
  | .str s => Text.parseFloat s
  | _ => none

/-- The first readable number among the fields. -/
def firstNumber (row : Row) : List String → Option Text.Number
  | [] => none
  | key :: keys =>
    match (row.get? key).bind fieldNumber with
    | some n => some n
    | none => firstNumber row keys

/-- `_number` with `required=False` (reconcile.py:343–373). -/
def number (row : Row) (keys : List String) : Except RowError ℚ :=
  match row.firstNumber keys with
  | some (.finite x) => .ok x
  | some .nonFinite => .error (.nonFiniteNumber keys)
  | none => .ok 0

/-- `_number` (reconcile.py:341–367). -/
def requiredNumber (row : Row) (keys : List String) : Except RowError ℚ :=
  match row.firstNumber keys with
  | some (.finite x) => .ok x
  | some .nonFinite => .error (.nonFiniteNumber keys)
  | none => .error (.missingNumber keys)

end Row

/-- `_asset` (reconcile.py:313–315), on the characters: the base of a pair. -/
def pairBase (pair : List Char) : List Char :=
  (pair.map fun c => if c = '/' then '-' else c).takeWhile (· ≠ '-')

/-- `_asset` (reconcile.py:313–315). -/
def pairAsset (pair : String) : String :=
  Text.upper (String.ofList (pairBase pair.toList))

theorem pairBase_append (x y : List Char) : pairBase (x ++ '-' :: y) = pairBase x := by
  induction x with
  | nil => rfl
  | cons c x ih =>
    unfold pairBase at *
    rw [List.cons_append, List.map_cons, List.map_cons, List.takeWhile_cons, List.takeWhile_cons,
      ih]

/-- The quote side of a pair does not matter for its base. -/
theorem pairAsset_append (base quote : String) :
    pairAsset (base ++ "-" ++ quote) = pairAsset base := by
  have hchars : (base ++ "-" ++ quote).toList = base.toList ++ '-' :: quote.toList := by
    rw [String.toList_append, String.toList_append, List.append_assoc]
    rfl
  rw [pairAsset, hchars, pairBase_append, pairAsset]

/-- `_side` (reconcile.py:317–324). -/
def rowSide (value : String) : Except RowError Side :=
  if Text.upper value = "BUY" then .ok .buy
  else if Text.upper value = "SELL" then .ok .sell
  else .error (.unsupportedSide value)

/-- The status mapping of `_map_state` (reconcile.py:293–310). -/
def statusTable : List (String × OrderLifecycleState) :=
  [("submitted", .submitted), ("pending", .submitted), ("acknowledged", .acknowledged),
    ("created", .acknowledged), ("open", .open), ("partially_filled", .partiallyFilled),
    ("partial", .partiallyFilled), ("filled", .filled), ("completed", .filled),
    ("cancelled", .cancelled), ("canceled", .cancelled), ("rejected", .rejected),
    ("failed", .rejected), ("expired", .expired)]

/-- `_map_state` (reconcile.py:290–311). -/
def mapState (status : String) : Option OrderLifecycleState :=
  let normalized := String.ofList
    (status.toList.map fun c => if c = '-' ∨ c = ' ' then '_' else c)
  statusTable.lookup normalized

/-- No venue status maps to `PLANNED` or `SUBMISSION_UNCERTAIN`. -/
theorem mapState_ne {status : String} {s : OrderLifecycleState} (h : mapState status = some s) :
    s ≠ .planned ∧ s ≠ .submissionUncertain := by
  have hmem : ∀ {k : String} {l : List (String × OrderLifecycleState)},
      l.lookup k = some s → s ∈ l.map Prod.snd := by
    intro k l
    induction l with
    | nil => exact fun h => by cases h
    | cons e rest ih =>
      intro h
      rw [List.lookup_cons] at h
      split at h
      · cases h
        exact List.mem_cons_self
      · exact List.mem_cons_of_mem _ (ih h)
  have hs := hmem h
  revert hs
  cases s <;> decide

example : mapState "partially-filled" = some .partiallyFilled := by decide +kernel

end TraderStack
