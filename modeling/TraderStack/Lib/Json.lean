import Mathlib.Data.List.Basic
import TraderStack.Lib.Dict

/-!
# Reading JSON

`loads` reads a text from left to right with a stack of the arrays and objects that are open. A
number keeps its spelling, a string is the list of its code points, and of two fields with one
key the later value counts. `NaN` and the infinities are read too, and an integer may not have
more than 4300 digits.

- `run_lift`: what is read inside an open array or object is read as it would be on its own;
- `loads_merged_ne_obj`: **a merged line**: what starts as an object makes no object with
  anything before it but blanks;
- `loads_torn_ne_obj`: **a torn text** is no object.
-/

namespace TraderStack.Lib

/-- Whether all characters of a text pass is found out along the text, not over all characters. -/
instance decidableForallChar {p : Char → Prop} [DecidablePred p] (text : List Char) :
    Decidable (∀ c ∈ text, p c) :=
  List.decidableBAll p text

/-- A JSON value. -/
inductive Json where
  | null
  | bool (value : Bool)
  | num (spelling : List Char)
  | str (points : List ℕ)
  | arr (items : List Json)
  | obj (fields : List (List ℕ × Json))

namespace Json

/-! ## The reader -/

/-- Why a text is not read. -/
inductive LoadError where
  /-- `JSONDecodeError`. -/
  | decode
  /-- `ValueError`: an integer with too many digits. -/
  | digits
deriving DecidableEq, Repr

/-- Where in a number the reader stands. -/
inductive NumberPart where
  | minus
  | zero
  | whole
  | point
  | fraction
  | exponent
  | exponentSign
  | exponentDigits
deriving DecidableEq, Repr

/-- The part a number starts with. -/
def NumberPart.start (c : Char) : Option NumberPart :=
  if c = '-' then some .minus
  else if c = '0' then some .zero
  else if c.isDigit then some .whole
  else none

/-- The part after one more character, `none` where the number ends. -/
def NumberPart.next (part : NumberPart) (c : Char) : Option NumberPart :=
  match part with
  | .minus => if c = '0' then some .zero else if c.isDigit then some .whole else none
  | .zero =>
    if c = '.' then some .point else if c = 'e' ∨ c = 'E' then some .exponent else none
  | .whole =>
    if c.isDigit then some .whole
    else if c = '.' then some .point
    else if c = 'e' ∨ c = 'E' then some .exponent
    else none
  | .point => if c.isDigit then some .fraction else none
  | .fraction =>
    if c.isDigit then some .fraction else if c = 'e' ∨ c = 'E' then some .exponent else none
  | .exponent =>
    if c = '+' ∨ c = '-' then some .exponentSign
    else if c.isDigit then some .exponentDigits
    else none
  | .exponentSign => if c.isDigit then some .exponentDigits else none
  | .exponentDigits => if c.isDigit then some .exponentDigits else none

/-- A number can end here. -/
def NumberPart.complete : NumberPart → Bool
  | .zero | .whole | .fraction | .exponentDigits => true
  | .minus | .point | .exponent | .exponentSign => false

/-- `sys.int_info.default_max_str_digits`. -/
def maxStrDigits : ℕ := 4300

/-- What was read as a number, up to a dot or an exponent that has no digits, is an integer. -/
def isInteger (spelling : List Char) (part : NumberPart) : Bool :=
  part = .whole || part = .point ||
    ((part = .exponent || part = .exponentSign) && '.' ∉ spelling)

/-- The value of a number that ends. -/
def closeNumber (spelling : List Char) (part : NumberPart) : Except LoadError Json :=
  if isInteger spelling part ∧ maxStrDigits < spelling.countP Char.isDigit then .error .digits
  else if part.complete then .ok (.num spelling)
  else .error .decode

/-- The words a value can be. -/
inductive Word where
  | null
  | true
  | false
  | nan
  | infinity
  | minusInfinity
deriving DecidableEq, Repr

/-- The characters after the first, or after the sign and the first. -/
def Word.rest : Word → List Char
  | .null => ['u', 'l', 'l']
  | .true => ['r', 'u', 'e']
  | .false => ['a', 'l', 's', 'e']
  | .nan => ['a', 'N']
  | .infinity | .minusInfinity => ['n', 'f', 'i', 'n', 'i', 't', 'y']

/-- What a word stands for. -/
def Word.value : Word → Json
  | .null => .null
  | .true => .bool Bool.true
  | .false => .bool Bool.false
  | .nan => .num ['N', 'a', 'N']
  | .infinity => .num ['I', 'n', 'f', 'i', 'n', 'i', 't', 'y']
  | .minusInfinity => .num ['-', 'I', 'n', 'f', 'i', 'n', 'i', 't', 'y']

/-- Where in a string the reader stands. -/
inductive StringPart where
  | plain
  | escape
  | hex (value count : ℕ)
deriving DecidableEq, Repr

/-- An array or an object that is open around the value that is read. -/
inductive Frame where
  | arr (items : List Json)
  | obj (fields : List (List ℕ × Json)) (key : List ℕ)

/-- What the reader expects. -/
inductive Mode where
  | value
  | itemStart
  | itemEnd (items : List Json)
  | fieldStart
  | fieldNext (fields : List (List ℕ × Json))
  | colon (fields : List (List ℕ × Json)) (key : List ℕ)
  | fieldEnd (fields : List (List ℕ × Json))
  /-- In a string, a key where `fields` are given; its code points are in reverse. -/
  | string (fields : Option (List (List ℕ × Json))) (points : List ℕ) (part : StringPart)
  | number (spelling : List Char) (part : NumberPart)
  | word (word : Word) (place : ℕ)
  | done (value : Json)

/-- The reader: what it expects, and what is open around it, the innermost first. -/
structure Reader where
  mode : Mode
  stack : List Frame

/-- Blanks between the tokens. -/
def isBlank (c : Char) : Bool := c = ' ' || c = '\t' || c = '\n' || c = '\r'

/-- A value is complete. -/
def emit (value : Json) : List Frame → Reader
  | [] => ⟨.done value, []⟩
  | .arr items :: stack => ⟨.itemEnd (items ++ [value]), stack⟩
  | .obj fields key :: stack => ⟨.fieldEnd (Assoc.set key value fields), stack⟩

/-- The first character of a value. -/
def beginValue (c : Char) (stack : List Frame) : Except LoadError Reader :=
  if c = '{' then .ok ⟨.fieldStart, stack⟩
  else if c = '[' then .ok ⟨.itemStart, stack⟩
  else if c = '"' then .ok ⟨.string none [] .plain, stack⟩
  else if c = 'n' then .ok ⟨.word .null 0, stack⟩
  else if c = 't' then .ok ⟨.word .true 0, stack⟩
  else if c = 'f' then .ok ⟨.word .false 0, stack⟩
  else if c = 'N' then .ok ⟨.word .nan 0, stack⟩
  else if c = 'I' then .ok ⟨.word .infinity 0, stack⟩
  else
    match NumberPart.start c with
    | some part => .ok ⟨.number [c] part, stack⟩
    | none => .error .decode

/-- A character after a value that is complete. -/
def afterValue (r : Reader) (c : Char) : Except LoadError Reader :=
  if isBlank c then .ok r
  else
    match r.mode with
    | .itemEnd items =>
      if c = ',' then .ok ⟨.value, .arr items :: r.stack⟩
      else if c = ']' then .ok (emit (.arr items) r.stack)
      else .error .decode
    | .fieldEnd fields =>
      if c = ',' then .ok ⟨.fieldNext fields, r.stack⟩
      else if c = '}' then .ok (emit (.obj fields) r.stack)
      else .error .decode
    | _ => .error .decode

/-- The value of a hexadecimal digit. -/
def hexValue (c : Char) : Option ℕ :=
  if c.isDigit then some (c.toNat - '0'.toNat)
  else if 'a' ≤ c ∧ c ≤ 'f' then some (c.toNat - 'a'.toNat + 10)
  else if 'A' ≤ c ∧ c ≤ 'F' then some (c.toNat - 'A'.toNat + 10)
  else none

/-- One more escaped unit of a string: the second half of a surrogate pair joins the first. -/
def pushUnit (points : List ℕ) (unit : ℕ) : List ℕ :=
  match points with
  | high :: before =>
    if 0xD800 ≤ high ∧ high ≤ 0xDBFF ∧ 0xDC00 ≤ unit ∧ unit ≤ 0xDFFF then
      (0x10000 + (high - 0xD800) * 1024 + (unit - 0xDC00)) :: before
    else unit :: high :: before
  | [] => [unit]

/-- What a character after a backslash stands for. -/
def unescape (c : Char) : Option ℕ :=
  if c = '"' ∨ c = '\\' ∨ c = '/' then some c.toNat
  else if c = 'b' then some 8
  else if c = 'f' then some 12
  else if c = 'n' then some 10
  else if c = 'r' then some 13
  else if c = 't' then some 9
  else none

/-- A character inside a string. -/
def inString (fields : Option (List (List ℕ × Json))) (points : List ℕ) (part : StringPart)
    (stack : List Frame) (c : Char) : Except LoadError Reader :=
  match part with
  | .plain =>
    if c = '"' then
      match fields with
      | none => .ok (emit (.str points.reverse) stack)
      | some fields => .ok ⟨.colon fields points.reverse, stack⟩
    else if c = '\\' then .ok ⟨.string fields points .escape, stack⟩
    else if c.toNat < 32 then .error .decode
    else .ok ⟨.string fields (c.toNat :: points) .plain, stack⟩
  | .escape =>
    if c = 'u' then .ok ⟨.string fields points (.hex 0 0), stack⟩
    else
      match unescape c with
      | some point => .ok ⟨.string fields (point :: points) .plain, stack⟩
      | none => .error .decode
  | .hex value count =>
    match hexValue c with
    | none => .error .decode
    | some digit =>
      if count = 3 then .ok ⟨.string fields (pushUnit points (16 * value + digit)) .plain, stack⟩
      else .ok ⟨.string fields points (.hex (16 * value + digit) (count + 1)), stack⟩

/-- One character is read. -/
def step (r : Reader) (c : Char) : Except LoadError Reader :=
  match r.mode with
  | .value => if isBlank c then .ok r else beginValue c r.stack
  | .itemStart =>
    if isBlank c then .ok r
    else if c = ']' then .ok (emit (.arr []) r.stack)
    else beginValue c (.arr [] :: r.stack)
  | .fieldStart =>
    if isBlank c then .ok r
    else if c = '"' then .ok ⟨.string (some []) [] .plain, r.stack⟩
    else if c = '}' then .ok (emit (.obj []) r.stack)
    else .error .decode
  | .fieldNext fields =>
    if isBlank c then .ok r
    else if c = '"' then .ok ⟨.string (some fields) [] .plain, r.stack⟩
    else .error .decode
  | .colon fields key =>
    if isBlank c then .ok r
    else if c = ':' then .ok ⟨.value, .obj fields key :: r.stack⟩
    else .error .decode
  | .string fields points part => inString fields points part r.stack c
  | .number spelling part =>
    match part.next c with
    | some part => .ok ⟨.number (spelling ++ [c]) part, r.stack⟩
    | none =>
      if part = .minus ∧ c = 'I' then .ok ⟨.word .minusInfinity 0, r.stack⟩
      else
        match closeNumber spelling part with
        | .error e => .error e
        | .ok value => afterValue (emit value r.stack) c
  | .word word place =>
    if word.rest[place]? = some c then
      if place + 1 = word.rest.length then .ok (emit word.value r.stack)
      else .ok ⟨.word word (place + 1), r.stack⟩
    else .error .decode
  | .itemEnd _ | .fieldEnd _ | .done _ => afterValue r c

/-- The characters of a text are read. -/
def run (r : Reader) : List Char → Except LoadError Reader
  | [] => .ok r
  | c :: text =>
    match step r c with
    | .error e => .error e
    | .ok r' => run r' text

/-- The text is at its end. -/
def finish (r : Reader) : Except LoadError Json :=
  match r.mode, r.stack with
  | .done value, [] => .ok value
  | .number spelling part, [] => closeNumber spelling part
  | _, _ => .error .decode

/-- The reader before the first character. -/
def start : Reader := ⟨.value, []⟩

/-- `json.loads`. -/
def loads (text : List Char) : Except LoadError Json :=
  match run start text with
  | .error e => .error e
  | .ok r => finish r

/-! ## Reading inside something that is open -/

/-- The reader inside further open arrays and objects. -/
def Reader.lift (r : Reader) (outer : List Frame) : Reader :=
  match r.mode with
  | .done value => emit value (r.stack ++ outer)
  | mode => ⟨mode, r.stack ++ outer⟩

variable {r r' : Reader} {c : Char} {text : List Char} (outer : List Frame)

theorem lift_emit (value : Json) (stack : List Frame) :
    (emit value stack).lift outer = emit value (stack ++ outer) := by
  rcases stack with _ | ⟨frame, stack⟩
  · rfl
  · cases frame <;> rfl

/-- A blank after a value changes nothing. -/
theorem afterValue_blank (h : isBlank c = true) : afterValue r c = .ok r := by
  rw [afterValue, if_pos h]

theorem afterValue_lift (h : afterValue r c = .ok r') :
    afterValue (r.lift outer) c = .ok (r'.lift outer) := by
  by_cases hblank : isBlank c = true
  · rw [afterValue_blank hblank] at h ⊢
    cases h
    rfl
  · obtain ⟨mode, stack⟩ := r
    rw [afterValue, if_neg hblank] at h
    cases mode with
    | itemEnd items =>
      rw [Reader.lift, afterValue, if_neg hblank]
      simp only at h ⊢
      by_cases hcomma : c = ','
      · rw [if_pos hcomma] at h ⊢
        cases h
        rfl
      · rw [if_neg hcomma] at h ⊢
        split at h
        · cases h
          rw [if_pos ‹_›, lift_emit]
        · cases h
    | fieldEnd fields =>
      rw [Reader.lift, afterValue, if_neg hblank]
      simp only at h ⊢
      by_cases hcomma : c = ','
      · rw [if_pos hcomma] at h ⊢
        cases h
        rfl
      · rw [if_neg hcomma] at h ⊢
        split at h
        · cases h
          rw [if_pos ‹_›, lift_emit]
        · cases h
    | _ => cases h

theorem beginValue_lift (stack : List Frame) :
    beginValue c (stack ++ outer) = (beginValue c stack).map fun r => r.lift outer := by
  unfold beginValue
  simp only [apply_ite (Except.map _)]
  cases NumberPart.start c <;> rfl

theorem inString_lift (fields : Option (List (List ℕ × Json))) (points : List ℕ)
    (part : StringPart) (stack : List Frame) :
    inString fields points part (stack ++ outer) c
      = (inString fields points part stack c).map fun r => r.lift outer := by
  cases part with
  | plain =>
    unfold inString
    cases fields with
    | none =>
      simp only [← lift_emit]
      split_ifs <;> rfl
    | some fields => split_ifs <;> rfl
  | escape =>
    unfold inString
    cases unescape c <;> split_ifs <;> rfl
  | hex value count =>
    unfold inString
    cases hexValue c with
    | none => rfl
    | some digit =>
      simp only
      split_ifs <;> rfl

theorem of_map_ok {x : Except LoadError Reader} {y : Except LoadError Reader}
    (hy : y = x.map fun r => r.lift outer) (h : x = .ok r') : y = .ok (r'.lift outer) := by
  rw [hy, h]
  rfl

theorem step_emit (value : Json) (stack : List Frame) :
    step (emit value stack) c = afterValue (emit value stack) c := by
  rcases stack with _ | ⟨frame, stack⟩
  · rfl
  · cases frame <;> rfl

/-- **One character inside** further arrays and objects is read as it is on its own. -/
theorem step_lift (h : step r c = .ok r') : step (r.lift outer) c = .ok (r'.lift outer) := by
  obtain ⟨mode, stack⟩ := r
  cases mode with
  | value =>
    show step ⟨.value, stack ++ outer⟩ c = _
    simp only [step] at h ⊢
    by_cases hblank : isBlank c = true
    · rw [if_pos hblank] at h ⊢
      cases h
      rfl
    · rw [if_neg hblank] at h ⊢
      exact of_map_ok outer (beginValue_lift outer stack) h
  | itemStart =>
    show step ⟨.itemStart, stack ++ outer⟩ c = _
    simp only [step] at h ⊢
    by_cases hblank : isBlank c = true
    · rw [if_pos hblank] at h ⊢
      cases h
      rfl
    · rw [if_neg hblank] at h ⊢
      by_cases hclose : c = ']'
      · rw [if_pos hclose] at h ⊢
        cases h
        rw [lift_emit]
      · rw [if_neg hclose] at h ⊢
        exact of_map_ok outer (beginValue_lift outer (.arr [] :: stack)) h
  | fieldStart =>
    show step ⟨.fieldStart, stack ++ outer⟩ c = _
    simp only [step] at h ⊢
    split_ifs at h ⊢ <;> cases h
    · rfl
    · rfl
    · rw [lift_emit]
  | fieldNext fields =>
    show step ⟨.fieldNext fields, stack ++ outer⟩ c = _
    simp only [step] at h ⊢
    split_ifs at h ⊢ <;> cases h <;> rfl
  | colon fields key =>
    show step ⟨.colon fields key, stack ++ outer⟩ c = _
    simp only [step] at h ⊢
    split_ifs at h ⊢ <;> cases h <;> rfl
  | string fields points part =>
    show step ⟨.string fields points part, stack ++ outer⟩ c = _
    simp only [step] at h ⊢
    exact of_map_ok outer (inString_lift outer fields points part stack) h
  | number spelling part =>
    show step ⟨.number spelling part, stack ++ outer⟩ c = _
    simp only [step] at h ⊢
    cases hnext : part.next c with
    | some part =>
      rw [hnext] at h
      cases h
      rfl
    | none =>
      rw [hnext] at h
      simp only at h ⊢
      split_ifs at h ⊢
      · cases h
        rfl
      · cases hclose : closeNumber spelling part with
        | error e =>
          rw [hclose] at h
          cases h
        | ok value =>
          rw [hclose] at h
          have hafter := afterValue_lift outer h
          rwa [lift_emit] at hafter
  | word word place =>
    show step ⟨.word word place, stack ++ outer⟩ c = _
    simp only [step] at h ⊢
    split_ifs at h ⊢ <;> cases h
    · rw [lift_emit]
    · rfl
  | itemEnd items => exact afterValue_lift outer h
  | fieldEnd fields => exact afterValue_lift outer h
  | done value =>
    have hafter := afterValue_lift outer (r := ⟨.done value, stack⟩) h
    rwa [Reader.lift, ← step_emit] at hafter

/-- **What is read inside** something that is open is read as it is on its own. -/
theorem run_lift (h : run r text = .ok r') : run (r.lift outer) text = .ok (r'.lift outer) := by
  induction text generalizing r with
  | nil =>
    cases h
    rfl
  | cons c text ih =>
    rw [run] at h ⊢
    cases hstep : step r c with
    | error e =>
      rw [hstep] at h
      cases h
    | ok next =>
      rw [hstep] at h
      rw [step_lift outer hstep]
      exact ih h

theorem run_append (r : Reader) (text more : List Char) :
    run r (text ++ more) =
      match run r text with
      | .error e => .error e
      | .ok r' => run r' more := by
  induction text generalizing r with
  | nil => rfl
  | cons c text ih =>
    rw [List.cons_append, run, run]
    cases step r c with
    | error e => rfl
    | ok next => exact ih next

/-! ## A merged line -/

theorem emit_ne_start (value : Json) (stack : List Frame) : emit value stack ≠ start := by
  rcases stack with _ | ⟨frame, stack⟩
  · exact fun h => by cases h
  · cases frame <;> exact fun h => by cases h

/-- If neither branch is a value, what is chosen is not. -/
theorem ite_ne {α : Type*} {p : Prop} [Decidable p] {a b x : α} (ha : a ≠ x) (hb : b ≠ x) :
    (if p then a else b) ≠ x := by
  split
  · exact ha
  · exact hb

theorem beginValue_ne_start (stack : List Frame) : beginValue c stack ≠ .ok start := by
  unfold beginValue
  iterate 8 refine ite_ne (fun h => by cases h) ?_
  cases NumberPart.start c <;> exact fun h => by cases h

theorem afterValue_ne_start (hr : r ≠ start) : afterValue r c ≠ .ok start := by
  intro h
  by_cases hblank : isBlank c = true
  · rw [afterValue_blank hblank] at h
    exact hr (Except.ok.inj h)
  · obtain ⟨mode, stack⟩ := r
    rw [afterValue, if_neg hblank] at h
    cases mode with
    | itemEnd items =>
      simp only at h
      split_ifs at h
      · cases h
      · exact emit_ne_start _ _ (Except.ok.inj h)
    | fieldEnd fields =>
      simp only at h
      split_ifs at h
      · cases h
      · exact emit_ne_start _ _ (Except.ok.inj h)
    | _ => cases h

theorem inString_ne_start (fields : Option (List (List ℕ × Json))) (points : List ℕ)
    (part : StringPart) (stack : List Frame) : inString fields points part stack c ≠ .ok start := by
  cases part with
  | plain =>
    unfold inString
    cases fields with
    | none =>
      simp only
      split_ifs
      · exact fun h => emit_ne_start _ _ (Except.ok.inj h)
      all_goals exact fun h => by cases h
    | some fields => split_ifs <;> exact fun h => by cases h
  | escape =>
    unfold inString
    cases unescape c <;> split_ifs <;> exact fun h => by cases h
  | hex value count =>
    unfold inString
    cases hexValue c with
    | none => exact fun h => by cases h
    | some digit =>
      simp only
      split_ifs <;> exact fun h => by cases h

/-- Once something was read the reader does not come back to its start. -/
theorem step_ne_start (hr : r ≠ start) : step r c ≠ .ok start := by
  obtain ⟨mode, stack⟩ := r
  intro h
  cases mode with
  | value =>
    simp only [step] at h
    split_ifs at h
    · exact hr (Except.ok.inj h)
    · exact beginValue_ne_start stack h
  | itemStart =>
    simp only [step] at h
    split_ifs at h
    · exact hr (Except.ok.inj h)
    · exact emit_ne_start _ _ (Except.ok.inj h)
    · exact beginValue_ne_start _ h
  | fieldStart =>
    simp only [step] at h
    split_ifs at h
    · exact hr (Except.ok.inj h)
    · cases h
    · exact emit_ne_start _ _ (Except.ok.inj h)
  | fieldNext fields =>
    simp only [step] at h
    split_ifs at h
    · exact hr (Except.ok.inj h)
    · cases h
  | colon fields key =>
    simp only [step] at h
    split_ifs at h
    · exact hr (Except.ok.inj h)
    · cases h
  | string fields points part => exact inString_ne_start fields points part stack h
  | number spelling part =>
    simp only [step] at h
    cases hnext : part.next c with
    | some part =>
      rw [hnext] at h
      cases h
    | none =>
      rw [hnext] at h
      simp only at h
      split_ifs at h
      · cases h
      · cases hclose : closeNumber spelling part with
        | error e =>
          rw [hclose] at h
          cases h
        | ok value =>
          rw [hclose] at h
          exact afterValue_ne_start (emit_ne_start _ _) h
  | word word place =>
    simp only [step] at h
    split_ifs at h
    · exact emit_ne_start _ _ (Except.ok.inj h)
    · cases h
  | itemEnd items => exact afterValue_ne_start hr h
  | fieldEnd fields => exact afterValue_ne_start hr h
  | done value => exact afterValue_ne_start hr h

theorem run_ne_start (hr : r ≠ start) : run r text ≠ .ok start := by
  induction text generalizing r with
  | nil => exact fun h => hr (Except.ok.inj h)
  | cons c text ih =>
    rw [run]
    cases hstep : step r c with
    | error e => exact fun h => by cases h
    | ok next =>
      refine ih ?_
      rintro rfl
      exact step_ne_start hr hstep

/-- Of a text that is not blank the reader has read something. -/
theorem run_start_ne_start (h : ∃ c ∈ text, isBlank c = false) : run start text ≠ .ok start := by
  induction text with
  | nil => obtain ⟨c, hmem, -⟩ := h; simp at hmem
  | cons c text ih =>
    rw [run]
    cases hblank : isBlank c with
    | true =>
      have hstep : step start c = .ok start := if_pos hblank
      rw [hstep]
      refine ih ?_
      obtain ⟨d, hmem, hd⟩ := h
      rcases List.mem_cons.mp hmem with rfl | hmem
      · rw [hblank] at hd
        cases hd
      · exact ⟨d, hmem, hd⟩
    | false =>
      have hstep : step start c = beginValue c [] := if_neg (by simp [hblank])
      rw [hstep]
      cases hbegin : beginValue c [] with
      | error e => exact fun h => by cases h
      | ok next =>
        refine run_ne_start ?_
        rintro rfl
        exact beginValue_ne_start [] hbegin

/-- Only `,`, `]` and `}` follow a value. -/
theorem afterValue_of_isAlpha (h : c.isAlpha = true) : afterValue r c = .error .decode := by
  have hblank : ¬isBlank c = true := by
    intro hb
    simp only [isBlank, Bool.or_eq_true, decide_eq_true_eq] at hb
    rcases hb with ((rfl | rfl) | rfl) | rfl <;> revert h <;> decide
  have hcomma : c ≠ ',' := by rintro rfl; revert h; decide
  have hbracket : c ≠ ']' := by rintro rfl; revert h; decide
  have hbrace : c ≠ '}' := by rintro rfl; revert h; decide
  rw [afterValue, if_neg hblank]
  cases r.mode with
  | itemEnd items => exact (if_neg hcomma).trans (if_neg hbracket)
  | fieldEnd fields => exact (if_neg hcomma).trans (if_neg hbrace)
  | _ => rfl

/-- Inside something that is open a value ends no text. -/
theorem finish_emit (value : Json) (frame : Frame) (stack : List Frame) :
    finish (emit value (frame :: stack)) = .error .decode := by
  cases frame <;> rfl

/-- Neither a value nor a key goes on with a letter. -/
theorem closed_string_error {d : Char} (hd : d.isAlpha = true)
    (fields : Option (List (List ℕ × Json))) (points : List ℕ) (stack : List Frame) :
    run ⟨.string fields points .plain, stack⟩ ('"' :: d :: text) = .error .decode := by
  have hquote : step ⟨.string fields points .plain, stack⟩ '"' =
      match fields with
      | none => .ok (emit (.str points.reverse) stack)
      | some fields => .ok ⟨.colon fields points.reverse, stack⟩ := rfl
  rw [run, hquote]
  cases fields with
  | none =>
    simp only
    rw [run, step_emit, afterValue_of_isAlpha hd]
  | some fields =>
    have hcolon : step ⟨.colon fields points.reverse, stack⟩ d = .error .decode := by
      have hblank : ¬isBlank d = true := by
        intro hb
        have hok := afterValue_blank (r := start) hb
        rw [afterValue_of_isAlpha hd] at hok
        cases hok
      have hne : d ≠ ':' := by rintro rfl; revert hd; decide
      exact (if_neg hblank).trans (if_neg hne)
    simp only
    rw [run, hcolon]

/-- A text that starts as an object does whose first key starts with a letter. -/
def OpensObject : List Char → Prop
  | [] => False
  | [c] => c = '{'
  | [c, q] => c = '{' ∧ q = '"'
  | c :: q :: d :: _ => c = '{' ∧ q = '"' ∧ d.isAlpha = true

/-- What starts as an object starts with a brace. -/
theorem OpensObject.brace (h : OpensObject text) : ∃ rest, text = '{' :: rest := by
  match text, h with
  | [_], h => exact ⟨[], by rw [h]⟩
  | [_, q], h => exact ⟨[q], by rw [h.1]⟩
  | _ :: q :: d :: rest, h => exact ⟨q :: d :: rest, by rw [h.1]⟩

/-- In a string the first quote of an object ends the string. -/
theorem string_not_object (h : OpensObject text) (fields : Option (List (List ℕ × Json)))
    (points : List ℕ) (stack : List Frame)
    (hrun : run ⟨.string fields points .plain, stack⟩ text = .ok r')
    (u : List (List ℕ × Json)) : finish r' ≠ .ok (.obj u) := by
  match text, h with
  | [_], h =>
    rw [h] at hrun
    cases hrun
    exact fun h => by cases h
  | [_, _], ⟨hc, hq⟩ =>
    rw [hc, hq] at hrun
    cases fields with
    | none =>
      cases hrun
      rcases stack with _ | ⟨frame, stack⟩
      · exact fun h => by cases h
      · rw [finish_emit]
        exact fun h => by cases h
    | some fields =>
      cases hrun
      exact fun h => by cases h
  | _ :: _ :: d :: rest, ⟨hc, hq, hd⟩ =>
    have hbrace : run ⟨.string fields points .plain, stack⟩ ('{' :: '"' :: d :: rest)
        = run ⟨.string fields ('{'.toNat :: points) .plain, stack⟩ ('"' :: d :: rest) := rfl
    rw [hc, hq, hbrace, closed_string_error hd] at hrun
    cases hrun

/-- What is read inside something that is open ends no text. -/
theorem finish_lift (r : Reader) (frame : Frame) (stack : List Frame) :
    finish (r.lift (frame :: stack)) = .error .decode := by
  obtain ⟨mode, inner⟩ := r
  have hcons : ∃ f rest, inner ++ frame :: stack = f :: rest := by
    cases inner with
    | nil => exact ⟨_, _, rfl⟩
    | cons f inner => exact ⟨_, _, rfl⟩
  obtain ⟨f, rest, hstack⟩ := hcons
  cases mode with
  | done value =>
    rw [Reader.lift, hstack]
    exact finish_emit value f rest
  | _ =>
    rw [Reader.lift, hstack]
    rfl

/-- The start of an object, read at any point of a text but its start, ends no object. -/
theorem run_opens_not_object {s : Reader} (h : OpensObject text) (hobject : run start text = .ok s)
    (hr : r ≠ start) (hrun : run r text = .ok r') (u : List (List ℕ × Json)) :
    finish r' ≠ .ok (.obj u) := by
  -- a value that is expected inside something open
  have hinside : ∀ frame stack, run ⟨.value, frame :: stack⟩ text = .ok r' →
      finish r' ≠ .ok (.obj u) := by
    intro frame stack hrun
    have hlift := run_lift (frame :: stack) hobject
    have heq : start.lift (frame :: stack) = ⟨.value, frame :: stack⟩ := rfl
    rw [heq, hrun] at hlift
    rw [Except.ok.inj hlift, finish_lift]
    exact fun h => by cases h
  obtain ⟨rest, hrest⟩ := h.brace
  obtain ⟨mode, stack⟩ := r
  cases mode with
  | value =>
    rcases stack with _ | ⟨frame, stack⟩
    · exact absurd rfl hr
    · exact hinside frame stack hrun
  | itemStart =>
    have hitem : run ⟨.itemStart, stack⟩ text = run ⟨.value, .arr [] :: stack⟩ text := by
      rw [hrest]
      rfl
    rw [hitem] at hrun
    exact hinside (.arr []) stack hrun
  | string fields points part =>
    cases part with
    | plain => exact string_not_object h fields points stack hrun u
    | escape =>
      rw [hrest] at hrun
      cases hrun
    | hex value count =>
      rw [hrest] at hrun
      cases hrun
  | number spelling part =>
    have hnext : part.next '{' = none := by cases part <;> rfl
    have hafter : ∀ value, afterValue (emit value stack) '{' = .error .decode := by
      intro value
      rcases stack with _ | ⟨frame, stack⟩
      · rfl
      · cases frame <;> rfl
    rw [hrest, run] at hrun
    simp only [step, hnext] at hrun
    rw [if_neg (by simp)] at hrun
    cases hclose : closeNumber spelling part with
    | error e =>
      rw [hclose] at hrun
      cases hrun
    | ok value =>
      rw [hclose] at hrun
      simp only [hafter] at hrun
      cases hrun
  | word word place =>
    have hnever : word.rest[place]? ≠ some '{' := by
      intro h
      have hmem := List.mem_of_getElem? h
      cases word <;> simp [Word.rest] at hmem
    rw [hrest, run] at hrun
    simp only [step, if_neg hnever] at hrun
    cases hrun
  | _ =>
    rw [hrest] at hrun
    cases hrun

/-- **A merged line**: what starts as an object makes no object with anything before it but
blanks. -/
theorem loads_merged_ne_obj {s : Reader} {before : List Char} (h : OpensObject text)
    (hobject : run start text = .ok s) (hbefore : ∃ c ∈ before, isBlank c = false)
    (u : List (List ℕ × Json)) : loads (before ++ text) ≠ .ok (.obj u) := by
  rw [loads, run_append]
  cases hfirst : run start before with
  | error e => exact fun h => by cases h
  | ok r =>
    have hr : r ≠ start := by
      rintro rfl
      exact run_start_ne_start hbefore hfirst
    simp only
    cases hrun : run r text with
    | error e => exact fun h => by cases h
    | ok r' => exact run_opens_not_object h hobject hr hrun u

/-! ## Blanks and torn texts -/

/-- Blanks before a text are not read. -/
theorem run_blanks {before : List Char} (h : ∀ c ∈ before, isBlank c = true) :
    run start before = .ok start := by
  induction before with
  | nil => rfl
  | cons c before ih =>
    have hstep : step start c = .ok start := if_pos (h c List.mem_cons_self)
    rw [run, hstep]
    exact ih fun d hd => h d (List.mem_cons_of_mem c hd)

/-- After a whole text only blanks are read. -/
theorem run_done {after : List Char} {v : Json} {stack : List Frame} :
    run ⟨.done v, stack⟩ after =
      if ∀ c ∈ after, isBlank c = true then .ok ⟨.done v, stack⟩ else .error .decode := by
  induction after with
  | nil => rfl
  | cons c after ih =>
    rw [run]
    by_cases hblank : isBlank c = true
    · have hstep : step ⟨.done v, stack⟩ c = .ok ⟨.done v, stack⟩ := afterValue_blank hblank
      rw [hstep]
      simp only [ih, List.forall_mem_cons, hblank, true_and]
    · have hstep : step ⟨.done v, stack⟩ c = .error .decode := by
        show afterValue ⟨.done v, stack⟩ c = _
        rw [afterValue, if_neg hblank]
      rw [hstep, if_neg fun h => hblank (h c List.mem_cons_self)]

/-- **A torn text** is no object: what a text lacks at its end, if more than blanks, is needed. -/
theorem loads_torn_ne_obj {v : Json} {before after : List Char}
    (hobject : run start (before ++ after) = .ok ⟨.done v, []⟩)
    (hafter : ∃ c ∈ after, isBlank c = false) (u : List (List ℕ × Json)) :
    loads before ≠ .ok (.obj u) := by
  rw [loads]
  rw [run_append] at hobject
  cases hrun : run start before with
  | error e => exact fun h => by cases h
  | ok r =>
    rw [hrun] at hobject
    simp only at hobject ⊢
    obtain ⟨mode, stack⟩ := r
    intro hfinish
    cases mode with
    | done value =>
      obtain ⟨c, hmem, hc⟩ := hafter
      rw [run_done, if_neg fun h => by rw [h c hmem] at hc; cases hc] at hobject
      cases hobject
    | number spelling part =>
      rcases stack with _ | ⟨frame, stack⟩
      · simp only [finish, closeNumber] at hfinish
        split_ifs at hfinish
        cases hfinish
      · cases hfinish
    | _ => cases hfinish

end Json

end TraderStack.Lib
