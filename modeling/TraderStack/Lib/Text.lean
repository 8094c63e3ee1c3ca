import Mathlib.Algebra.Order.Field.Rat
import Mathlib.Data.List.Basic

/-!
# Text

Strings are handled as lists of characters, which evaluate well: `upper` and
`lower` are `str.upper` and `str.lower` on ASCII text, and `parseFloat` is the
grammar of Python's `float(str)` over exact numbers. Upper-casing is
idempotent, so a key that was normalised once stays as it is.
-/

namespace TraderStack.Lib.Text

/-- `s.strip()`, on the characters. -/
def strip (l : List Char) : List Char :=
  ((l.dropWhile Char.isWhitespace).reverse.dropWhile Char.isWhitespace).reverse

/-- `s.upper()`. -/
def upper (s : String) : String := String.ofList (s.toList.map Char.toUpper)

/-- `s.lower()`. -/
def lower (s : String) : String := String.ofList (s.toList.map Char.toLower)

/-- `s.endswith(suffix)`. -/
def endsWith (s suffix : String) : Bool := suffix.toList.isSuffixOf s.toList

/-! ## Numbers in text -/

/-- What `float(...)` can return: a finite number, or NaN or an infinity. -/
inductive Number where
  | finite (x : ℚ)
  | nonFinite
deriving DecidableEq

/-- The digits at the head, with single underscores between digits skipped
(`prev`: the character before was a digit), and the rest. -/
def digits : Bool → List Char → List ℕ × List Char
  | _, [] => ([], [])
  | true, '_' :: c :: rest =>
    if c.isDigit then
      let (ds, r) := digits true rest
      ((c.toNat - '0'.toNat) :: ds, r)
    else ([], '_' :: c :: rest)
  | _, c :: rest =>
    if c.isDigit then
      let (ds, r) := digits true rest
      ((c.toNat - '0'.toNat) :: ds, r)
    else ([], c :: rest)

/-- The natural number a digit list denotes. -/
def natOfDigits (ds : List ℕ) : ℕ := ds.foldl (fun n d => 10 * n + d) 0

/-- A leading sign: is it negative, and the rest. -/
def sign : List Char → Bool × List Char
  | '-' :: rest => (true, rest)
  | '+' :: rest => (false, rest)
  | l => (false, l)

/-- The exponent part: all of the rest must be one. -/
def exponent : List Char → Option ℤ
  | [] => some 0
  | c :: rest =>
    if c.toLower = 'e' then
      let (neg, rest) := sign rest
      match digits false rest with
      | ([], _) => none
      | (ds, []) => some (if neg then -(natOfDigits ds : ℤ) else natOfDigits ds)
      | _ => none
    else none

/-- The fraction digits after a dot, if there is one. -/
def fraction : List Char → List ℕ × List Char
  | '.' :: rest => digits false rest
  | l => ([], l)

/-- An unsigned decimal: digits, fraction, exponent. -/
def decimal (l : List Char) : Option ℚ :=
  let (whole, l) := digits false l
  let (frac, l) := fraction l
  if whole.isEmpty && frac.isEmpty then none
  else
    match exponent l with
    | none => none
    | some e => some (natOfDigits (whole ++ frac) * (10 : ℚ) ^ (e - frac.length))

/-- `float(s)`, `none` where it raises `ValueError`. -/
def parseFloat (s : String) : Option Number :=
  let (neg, body) := sign (strip s.toList)
  if ["inf", "infinity", "nan"].contains (String.ofList (body.map Char.toLower)) then
    some .nonFinite
  else (decimal body).map fun x => .finite (if neg then -x else x)

example : parseFloat " -1_2.50e1 " = some (.finite (-125)) := by decide +kernel

example : parseFloat "1." = some (.finite 1) ∧ parseFloat "NaN" = some .nonFinite ∧
    parseFloat "1_" = none ∧ parseFloat "." = none := by decide +kernel

/-! ## Upper case -/

theorem char_toUpper_toUpper (c : Char) : c.toUpper.toUpper = c.toUpper := by
  unfold Char.toUpper
  split
  · -- a lower-case letter becomes an upper-case one, which no longer maps
    split
    · exfalso
      simp at *
      grind
    · rfl
  · rfl

@[simp] theorem upper_upper (s : String) : upper (upper s) = upper s := by
  rw [upper, upper, String.toList_ofList, List.map_map]
  congr 2
  funext c
  exact char_toUpper_toUpper c

end TraderStack.Lib.Text
