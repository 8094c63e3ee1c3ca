import TraderStack.Lib.Json

/-!
# Writing JSON

`dumps` is the compact text of an object of scalars, with everything but printable ASCII escaped.

- `loads_dumps`: **the round trip** of an object of scalars;
- `dumps_opening`: the text starts as an object does;
- `printable_dumps`: the text is printable ASCII, so it stays on its line.
-/

namespace TraderStack.Lib

namespace Json

/-! ## The writer -/

/-- How a word is spelled. -/
def Word.spelling (word : Word) : List Char :=
  match word with
  | .null => 'n' :: word.rest
  | .true => 't' :: word.rest
  | .false => 'f' :: word.rest
  | .nan => 'N' :: word.rest
  | .infinity => 'I' :: word.rest
  | .minusInfinity => '-' :: 'I' :: word.rest

/-- The part a number's spelling ends in. -/
def numberPart : List Char → Option NumberPart
  | [] => none
  | c :: rest => rest.foldl (fun part c => part.bind fun part => part.next c) (NumberPart.start c)

/-- A spelling is that of a number that can be read back. -/
def IsNumber (spelling : List Char) : Prop :=
  ∃ part, numberPart spelling = some part ∧ part.complete = Bool.true ∧
    (isInteger spelling part → spelling.countP Char.isDigit ≤ maxStrDigits)

instance : DecidablePred IsNumber := fun spelling =>
  match h : numberPart spelling with
  | none => isFalse fun ⟨_, hpart, _⟩ => by rw [h] at hpart; cases hpart
  | some part =>
    decidable_of_iff (part.complete = Bool.true ∧
        (isInteger spelling part → spelling.countP Char.isDigit ≤ maxStrDigits))
      ⟨fun hvalid => ⟨part, h, hvalid⟩, fun ⟨other, hpart, hvalid⟩ => by
        rw [h] at hpart
        cases hpart
        exact hvalid⟩

/-- A value without parts. -/
inductive Scalar where
  | word (word : Word)
  | num (spelling : List Char) (valid : IsNumber spelling)
  | str (text : List Char)

/-- The number that is spelled so, or null. -/
def Scalar.number (spelling : String) : Scalar :=
  if h : IsNumber spelling.toList then .num spelling.toList h else .word .null

/-- The code points of a text. -/
def points (text : List Char) : List ℕ := text.map Char.toNat

/-- The value a scalar is read back as. -/
def Scalar.toJson : Scalar → Json
  | .word w => w.value
  | .num spelling _ => .num spelling
  | .str text => .str (points text)

/-- A hexadecimal digit. -/
def hexDigit (n : ℕ) : Char := Char.ofNat (if n < 10 then 48 + n else 87 + n)

/-- A unit of 16 bits, escaped. -/
def unicodeEscape (unit : ℕ) : List Char :=
  ['\\', 'u', hexDigit (unit / 4096), hexDigit (unit / 256 % 16), hexDigit (unit / 16 % 16),
    hexDigit (unit % 16)]

/-- A character of a string, escaped unless it is printable ASCII. -/
def escapeChar (c : Char) : List Char :=
  if c = '"' then ['\\', '"']
  else if c = '\\' then ['\\', '\\']
  else if c = '\n' then ['\\', 'n']
  else if c = '\r' then ['\\', 'r']
  else if c = '\t' then ['\\', 't']
  else if c.toNat = 8 then ['\\', 'b']
  else if c.toNat = 12 then ['\\', 'f']
  else if 32 ≤ c.toNat ∧ c.toNat ≤ 126 then [c]
  else if c.toNat < 0x10000 then unicodeEscape c.toNat
  else
    unicodeEscape (0xD800 + (c.toNat - 0x10000) / 1024)
      ++ unicodeEscape (0xDC00 + (c.toNat - 0x10000) % 1024)

/-- A string in quotes. -/
def dumpsString (text : List Char) : List Char := '"' :: (text.flatMap escapeChar ++ ['"'])

/-- A scalar's text. -/
def dumpsScalar : Scalar → List Char
  | .word w => w.spelling
  | .num spelling _ => spelling
  | .str text => dumpsString text

/-- The fields of an object, with commas between them. -/
def dumpsFields : List (List Char × Scalar) → List Char
  | [] => []
  | [(key, value)] => dumpsString key ++ ':' :: dumpsScalar value
  | (key, value) :: field :: fields =>
    dumpsString key ++ ':' :: dumpsScalar value ++ ',' :: dumpsFields (field :: fields)

/-- `json.dumps(fields, separators=(",", ":"))`. -/
def dumps (fields : List (List Char × Scalar)) : List Char := '{' :: (dumpsFields fields ++ ['}'])

/-! ## The round trip -/

theorem hexValue_hexDigit : ∀ n < 16, hexValue (hexDigit n) = some n := by decide

variable {c : Char} {text : List Char} {fields : Option (List (List ℕ × Json))}
  {stack : List Frame} {acc : List ℕ}

theorem step_hex {value count digit : ℕ} (h : hexValue c = some digit) :
    step ⟨.string fields acc (.hex value count), stack⟩ c
      = if count = 3 then
          .ok ⟨.string fields (pushUnit acc (16 * value + digit)) .plain, stack⟩
        else .ok ⟨.string fields acc (.hex (16 * value + digit) (count + 1)), stack⟩ := by
  simp only [step, inString, h]

theorem run_hex {value count digit : ℕ} (h : hexValue c = some digit) (hcount : count ≠ 3) :
    run ⟨.string fields acc (.hex value count), stack⟩ (c :: text)
      = run ⟨.string fields acc (.hex (16 * value + digit) (count + 1)), stack⟩ text := by
  rw [run, step_hex h, if_neg hcount]

/-- An escaped unit is read back. -/
theorem run_unicodeEscape {unit : ℕ} (h : unit < 0x10000) :
    run ⟨.string fields acc .plain, stack⟩ (unicodeEscape unit)
      = .ok ⟨.string fields (pushUnit acc unit) .plain, stack⟩ := by
  have h1 := hexValue_hexDigit (unit / 4096) (by omega)
  have h2 := hexValue_hexDigit (unit / 256 % 16) (by omega)
  have h3 := hexValue_hexDigit (unit / 16 % 16) (by omega)
  have h4 := hexValue_hexDigit (unit % 16) (by omega)
  have hvalue : 16 * (16 * (16 * (16 * 0 + unit / 4096) + unit / 256 % 16) + unit / 16 % 16)
      + unit % 16 = unit := by omega
  have hslash : ∀ rest, run ⟨.string fields acc .plain, stack⟩ ('\\' :: 'u' :: rest)
      = run ⟨.string fields acc (.hex 0 0), stack⟩ rest := fun _ => rfl
  rw [unicodeEscape, hslash, run_hex h1 (by decide), run_hex h2 (by decide),
    run_hex h3 (by decide), run, step_hex h4, if_pos rfl, hvalue]
  rfl

/-- A unit that is not the second half of a pair stands for itself. -/
theorem pushUnit_of_not_low {unit : ℕ} (h : ¬(0xDC00 ≤ unit ∧ unit ≤ 0xDFFF)) :
    pushUnit acc unit = unit :: acc := by
  cases acc with
  | nil => rfl
  | cons high before => exact if_neg fun hpair => h hpair.2.2

/-- No character is half of a surrogate pair. -/
theorem not_surrogate (c : Char) : c.toNat < 0xD800 ∨ 0xDFFF < c.toNat ∧ c.toNat < 0x110000 :=
  c.valid

/-- An escaped character is read back. -/
theorem run_escapeChar (c : Char) :
    run ⟨.string fields acc .plain, stack⟩ (escapeChar c)
      = .ok ⟨.string fields (c.toNat :: acc) .plain, stack⟩ := by
  have hvalid := not_surrogate c
  unfold escapeChar
  by_cases hquote : c = '"'
  · rw [if_pos hquote, hquote]
    rfl
  by_cases hslash : c = '\\'
  · rw [if_neg hquote, if_pos hslash, hslash]
    rfl
  by_cases hn : c = '\n'
  · rw [if_neg hquote, if_neg hslash, if_pos hn, hn]
    rfl
  by_cases hr : c = '\r'
  · rw [if_neg hquote, if_neg hslash, if_neg hn, if_pos hr, hr]
    rfl
  by_cases ht : c = '\t'
  · rw [if_neg hquote, if_neg hslash, if_neg hn, if_neg hr, if_pos ht, ht]
    rfl
  rw [if_neg hquote, if_neg hslash, if_neg hn, if_neg hr, if_neg ht]
  by_cases hb : c.toNat = 8
  · rw [if_pos hb, hb]
    rfl
  by_cases hf : c.toNat = 12
  · rw [if_neg hb, if_pos hf, hf]
    rfl
  rw [if_neg hb, if_neg hf]
  by_cases hplain : 32 ≤ c.toNat ∧ c.toNat ≤ 126
  · rw [if_pos hplain]
    have hstep : step ⟨.string fields acc .plain, stack⟩ c
        = .ok ⟨.string fields (c.toNat :: acc) .plain, stack⟩ :=
      (if_neg hquote).trans ((if_neg hslash).trans (if_neg (by omega)))
    rw [run, hstep]
    rfl
  rw [if_neg hplain]
  by_cases hsmall : c.toNat < 0x10000
  · rw [if_pos hsmall, run_unicodeEscape hsmall, pushUnit_of_not_low (by omega)]
  · -- the two halves of a pair
    rw [if_neg hsmall, run_append, run_unicodeEscape (by omega), pushUnit_of_not_low (by omega)]
    simp only
    rw [run_unicodeEscape (by omega), pushUnit, if_pos (by omega)]
    have hpair : 0x10000 + (0xD800 + (c.toNat - 0x10000) / 1024 - 0xD800) * 1024
        + (0xDC00 + (c.toNat - 0x10000) % 1024 - 0xDC00) = c.toNat := by omega
    rw [hpair]

theorem run_text (text : List Char) :
    run ⟨.string fields acc .plain, stack⟩ (text.flatMap escapeChar)
      = .ok ⟨.string fields ((points text).reverse ++ acc) .plain, stack⟩ := by
  induction text generalizing acc with
  | nil => rfl
  | cons c text ih =>
    rw [List.flatMap_cons, run_append, run_escapeChar]
    simp only
    rw [ih, points, points, List.map_cons, List.reverse_cons, List.append_assoc]
    rfl

theorem run_word (w : Word) : run ⟨.value, stack⟩ w.spelling = .ok (emit w.value stack) := by
  cases w <;> rfl

/-- A number begins with its sign or a digit. -/
theorem step_numberStart {part : NumberPart} (h : NumberPart.start c = some part) :
    step ⟨.value, stack⟩ c = .ok ⟨.number [c] part, stack⟩ := by
  have hnot : ∀ d, NumberPart.start d = none → c ≠ d := by
    rintro d hd rfl
    rw [h] at hd
    cases hd
  have hblank : ¬isBlank c = true := by
    intro hb
    simp only [isBlank, Bool.or_eq_true, decide_eq_true_eq] at hb
    rcases hb with ((rfl | rfl) | rfl) | rfl <;> cases h
  simp only [step, if_neg hblank, beginValue, if_neg (hnot '{' rfl), if_neg (hnot '[' rfl),
    if_neg (hnot '"' rfl), if_neg (hnot 'n' rfl), if_neg (hnot 't' rfl), if_neg (hnot 'f' rfl),
    if_neg (hnot 'N' rfl), if_neg (hnot 'I' rfl), h]

/-- A number that has ended does not go on. -/
theorem foldl_ended (l : List Char) :
    l.foldl (fun part c => part.bind fun part => part.next c) (none : Option NumberPart)
      = none := by
  induction l with
  | nil => rfl
  | cons c l ih => exact ih

theorem run_numberRest {rest : List Char} {spelling : List Char} {part part' : NumberPart}
    (h : rest.foldl (fun part c => part.bind fun part => part.next c) (some part) = some part') :
    run ⟨.number spelling part, stack⟩ rest = .ok ⟨.number (spelling ++ rest) part', stack⟩ := by
  induction rest generalizing spelling part with
  | nil =>
    cases h
    rw [List.append_nil]
    rfl
  | cons c rest ih =>
    rw [List.foldl_cons, Option.bind_some] at h
    cases hnext : part.next c with
    | none =>
      rw [hnext, foldl_ended] at h
      cases h
    | some next =>
      rw [hnext] at h
      have hstep : step ⟨.number spelling part, stack⟩ c
          = .ok ⟨.number (spelling ++ [c]) next, stack⟩ := by simp only [step, hnext]
      rw [run, hstep]
      simp only
      rw [ih h, List.append_assoc]
      rfl

/-- A number is read back by what follows it. -/
theorem run_number {spelling : List Char} (valid : IsNumber spelling)
    (hnext : ∀ part, NumberPart.next part c = none) (hc : c ≠ 'I') :
    run ⟨.value, stack⟩ (spelling ++ [c]) = afterValue (emit (.num spelling) stack) c := by
  obtain ⟨part', hpart, hcomplete, hdigits⟩ := valid
  rcases spelling with _ | ⟨d, rest⟩
  · cases hpart
  cases hstart : NumberPart.start d with
  | none =>
    rw [numberPart, hstart, foldl_ended] at hpart
    cases hpart
  | some part =>
    rw [numberPart, hstart] at hpart
    have hclose : closeNumber (d :: rest) part' = .ok (.num (d :: rest)) := by
      rw [closeNumber, if_neg fun h => absurd (hdigits h.1) (by omega), if_pos hcomplete]
    rw [List.cons_append, run, step_numberStart hstart]
    simp only
    rw [run_append, run_numberRest hpart]
    simp only [run, step, hnext, List.singleton_append, hclose]
    rw [if_neg fun h => hc h.2]
    cases afterValue (emit (.num (d :: rest)) stack) c <;> rfl

/-- A string is read back, as a value or as a key. -/
theorem run_quoted (text rest : List Char) :
    run ⟨.string fields [] .plain, stack⟩ (text.flatMap escapeChar ++ '"' :: rest)
      = match fields with
        | none => run (emit (.str (points text)) stack) rest
        | some fields => run ⟨.colon fields (points text), stack⟩ rest := by
  have hquote : step ⟨.string fields (points text).reverse .plain, stack⟩ '"' =
      match fields with
      | none => .ok (emit (.str (points text).reverse.reverse) stack)
      | some fields => .ok ⟨.colon fields (points text).reverse.reverse, stack⟩ := rfl
  rw [run_append, run_text, List.append_nil]
  simp only
  rw [run, hquote, List.reverse_reverse]
  cases fields <;> rfl

/-- The characters that follow a value in an object. -/
def Closes (c : Char) : Prop := c = ',' ∨ c = '}'

/-- A scalar is read back by what follows it. -/
theorem run_scalar (v : Scalar) (hc : Closes c) :
    run ⟨.value, stack⟩ (dumpsScalar v ++ [c]) = afterValue (emit v.toJson stack) c := by
  have hone : ∀ r, run r [c] = step r c := by
    intro r
    rw [run]
    cases step r c <;> rfl
  cases v with
  | word w =>
    rw [dumpsScalar, run_append, run_word]
    simp only
    rw [hone, step_emit]
    rfl
  | num spelling valid =>
    refine run_number valid (fun part => ?_) ?_
    · rcases hc with rfl | rfl <;> cases part <;> rfl
    · rcases hc with rfl | rfl <;> decide
  | str text =>
    have hbegin : ∀ rest, run ⟨.value, stack⟩ ('"' :: rest)
        = run ⟨.string none [] .plain, stack⟩ rest := fun _ => rfl
    rw [dumpsScalar, dumpsString, List.cons_append, hbegin, List.append_assoc,
      List.singleton_append, run_quoted]
    simp only
    rw [hone, step_emit]
    rfl

/-- A field is read back by what follows it. -/
theorem run_field (key : List Char) (v : Scalar) (known : List (List ℕ × Json)) (hc : Closes c) :
    run ⟨.string (some known) [] .plain, stack⟩
        (key.flatMap escapeChar ++ '"' :: ':' :: (dumpsScalar v ++ [c]))
      = afterValue ⟨.fieldEnd (Assoc.set (points key) v.toJson known), stack⟩ c := by
  have hcolon : ∀ rest, run ⟨.colon known (points key), stack⟩ (':' :: rest)
      = run ⟨.value, .obj known (points key) :: stack⟩ rest := fun _ => rfl
  rw [run_quoted]
  simp only
  rw [hcolon, run_scalar v hc]
  rfl

/-- The fields of an object are read back. -/
theorem run_fields (key : List Char) (v : Scalar) (rest : List (List Char × Scalar))
    (known : List (List ℕ × Json)) :
    run ⟨.string (some known) [] .plain, []⟩
        ((dumpsFields ((key, v) :: rest)).tail ++ ['}'])
      = .ok ⟨.done (.obj (((key, v) :: rest).foldl
          (fun known f => Assoc.set (points f.1) f.2.toJson known) known)), []⟩ := by
  induction rest generalizing key v known with
  | nil =>
    have htext : (dumpsFields [(key, v)]).tail ++ ['}']
        = key.flatMap escapeChar ++ '"' :: ':' :: (dumpsScalar v ++ ['}']) := by
      simp [dumpsFields, dumpsString]
    rw [htext, run_field key v known (.inr rfl)]
    rfl
  | cons f rest ih =>
    obtain ⟨key', v'⟩ := f
    have htext : (dumpsFields ((key, v) :: (key', v') :: rest)).tail ++ ['}']
        = (key.flatMap escapeChar ++ '"' :: ':' :: (dumpsScalar v ++ [','])) ++
          '"' :: ((dumpsFields ((key', v') :: rest)).tail ++ ['}']) := by
      cases rest <;> simp [dumpsFields, dumpsString]
    have hcomma : afterValue ⟨.fieldEnd (Assoc.set (points key) v.toJson known), []⟩ ','
        = .ok ⟨.fieldNext (Assoc.set (points key) v.toJson known), []⟩ := rfl
    have hquote : ∀ known more, run ⟨.fieldNext known, []⟩ ('"' :: more)
        = run ⟨.string (some known) [] .plain, []⟩ more := fun _ _ => rfl
    rw [htext, run_append, run_field key v known (.inl rfl), hcomma]
    simp only
    rw [hquote, ih]
    rfl

/-- **An object of scalars is read to its end**, and to nothing but its end. -/
theorem run_dumps (fields : List (List Char × Scalar)) :
    run start (dumps fields)
      = .ok ⟨.done (.obj (fields.foldl
          (fun known f => Assoc.set (points f.1) f.2.toJson known) [])), []⟩ := by
  rcases fields with _ | ⟨⟨key, v⟩, rest⟩
  · rfl
  · have htext : dumps ((key, v) :: rest)
        = '{' :: '"' :: ((dumpsFields ((key, v) :: rest)).tail ++ ['}']) := by
      cases rest <;> simp [dumps, dumpsFields, dumpsString]
    have hopen : ∀ more, run start ('{' :: '"' :: more)
        = run ⟨.string (some []) [] .plain, []⟩ more := fun _ => rfl
    rw [htext, hopen, run_fields]

/-- Texts with the same code points are the same. -/
theorem points_injective : Function.Injective points :=
  List.map_injective_iff.mpr fun _ _ h => Char.toNat_inj.mp h

/-- Assigning fresh keys one after the other appends the fields. -/
theorem foldl_set_fresh (fields : List (List Char × Scalar)) (known : List (List ℕ × Json))
    (h : (known.map Prod.fst ++ fields.map fun f => points f.1).Nodup) :
    fields.foldl (fun known f => Assoc.set (points f.1) f.2.toJson known) known
      = known ++ fields.map fun f => (points f.1, f.2.toJson) := by
  induction fields generalizing known with
  | nil => simp
  | cons f fields ih =>
    have hfresh : points f.1 ∉ known.map Prod.fst := by
      rw [List.map_cons, List.nodup_append] at h
      exact fun hmem => h.2.2 _ hmem _ List.mem_cons_self rfl
    rw [List.foldl_cons, Assoc.set_of_fresh _ hfresh, ih, List.append_assoc, List.map_cons]
    · rfl
    · rw [List.map_append, List.append_assoc]
      exact h

/-- **The round trip**: an object of scalars with distinct keys is read back as it was. -/
theorem loads_dumps {fields : List (List Char × Scalar)} (h : (fields.map Prod.fst).Nodup) :
    loads (dumps fields) = .ok (.obj (fields.map fun f => (points f.1, f.2.toJson))) := by
  have hkeys : (fields.map fun f => points f.1).Nodup := by
    have := h.map points_injective
    rwa [List.map_map] at this
  rw [loads, run_dumps, foldl_set_fresh fields [] hkeys]
  rfl

/-- A letter is not escaped. -/
theorem escapeChar_of_isAlpha {d : Char} (h : d.isAlpha = true) : escapeChar d = [d] := by
  have hrange : 65 ≤ d.toNat ∧ d.toNat ≤ 122 := by
    rcases (Bool.or_eq_true _ _).mp h with h | h
    · have hupper : 65 ≤ d.val ∧ d.val ≤ 90 := of_decide_eq_true h
      exact ⟨hupper.1, hupper.2.trans (by decide)⟩
    · have hlower := (Bool.and_eq_true (97 ≤ d.val) (d.val ≤ 122)).mp h
      exact ⟨le_trans (by decide) (of_decide_eq_true hlower.1), of_decide_eq_true hlower.2⟩
  have hslash : d ≠ '\\' := by rintro rfl; revert h; decide
  have hne : ∀ e : Char, e.toNat < 65 → d ≠ e := by
    rintro e he rfl
    omega
  unfold escapeChar
  rw [if_neg (hne _ (by decide)), if_neg hslash, if_neg (hne _ (by decide)),
    if_neg (hne _ (by decide)), if_neg (hne _ (by decide)), if_neg (by omega),
    if_neg (by omega), if_pos (by omega)]

/-- The text of an object whose first key starts with a letter. -/
theorem dumps_opening {d : Char} (h : d.isAlpha = true) (key : List Char) (v : Scalar)
    (rest : List (List Char × Scalar)) :
    ∃ text, dumps ((d :: key, v) :: rest) = '{' :: '"' :: d :: text := by
  have hkey : dumpsString (d :: key) = '"' :: d :: (key.flatMap escapeChar ++ ['"']) := by
    rw [dumpsString, List.flatMap_cons, escapeChar_of_isAlpha h]
    rfl
  cases rest with
  | nil =>
    rw [dumps, dumpsFields, hkey]
    exact ⟨_, rfl⟩
  | cons f rest =>
    rw [dumps, dumpsFields, hkey]
    exact ⟨_, rfl⟩

/-- A part of a text from its start, if there is one, starts as an object where the text does. -/
theorem OpensObject.of_append {before : List Char} (after : List Char)
    (h : OpensObject (before ++ after)) (hne : before ≠ []) : OpensObject before := by
  match before, hne with
  | [c], _ =>
    obtain ⟨rest, hrest⟩ := h.brace
    exact (List.cons.inj hrest).1
  | [c, q], _ =>
    match after, h with
    | [], h => exact h
    | _ :: _, ⟨hc, hq, _⟩ => exact ⟨hc, hq⟩
  | _ :: _ :: _ :: _, _ => exact h

/-! ## Its characters -/

/-- Printable ASCII. -/
def Printable (c : Char) : Prop := 32 ≤ c.toNat ∧ c.toNat ≤ 126

instance (c : Char) : Decidable (Printable c) := inferInstanceAs (Decidable (_ ∧ _))

theorem printable_of_isDigit (h : c.isDigit = true) : Printable c := by
  simp only [Char.isDigit, Bool.and_eq_true, decide_eq_true_eq] at h
  exact ⟨le_trans (by decide) h.1, h.2.trans (by decide)⟩

theorem printable_numberStart {part : NumberPart} (h : NumberPart.start c = some part) :
    Printable c := by
  unfold NumberPart.start at h
  split_ifs at h with hminus hzero hdigit
  · rw [hminus]
    decide
  · rw [hzero]
    decide
  · exact printable_of_isDigit hdigit

theorem printable_numberNext {part part' : NumberPart} (h : part.next c = some part') :
    Printable c := by
  have hdot : c = '.' → Printable c := by rintro rfl; decide
  have hexp : c = 'e' ∨ c = 'E' → Printable c := by rintro (rfl | rfl) <;> decide
  have hsign : c = '+' ∨ c = '-' → Printable c := by rintro (rfl | rfl) <;> decide
  have hzero : c = '0' → Printable c := by rintro rfl; decide
  cases part <;> simp only [NumberPart.next] at h <;> split_ifs at h <;>
    first
    | exact printable_of_isDigit ‹_›
    | exact hdot ‹_›
    | exact hexp ‹_›
    | exact hsign ‹_›
    | exact hzero ‹_›

theorem printable_number {spelling : List Char} (valid : IsNumber spelling) :
    ∀ c ∈ spelling, Printable c := by
  obtain ⟨part', hpart, -, -⟩ := valid
  have hrest : ∀ (rest : List Char) (part : NumberPart),
      rest.foldl (fun part c => part.bind fun part => part.next c) (some part) = some part' →
        ∀ c ∈ rest, Printable c := by
    intro rest
    induction rest with
    | nil => simp
    | cons d rest ih =>
      intro part h c hmem
      rw [List.foldl_cons, Option.bind_some] at h
      cases hnext : part.next d with
      | none =>
        rw [hnext, foldl_ended] at h
        cases h
      | some next =>
        rw [hnext] at h
        rcases List.mem_cons.mp hmem with rfl | hmem
        · exact printable_numberNext hnext
        · exact ih next h c hmem
  rcases spelling with _ | ⟨d, rest⟩
  · simp
  · intro c hmem
    rw [numberPart] at hpart
    cases hstart : NumberPart.start d with
    | none =>
      rw [hstart, foldl_ended] at hpart
      cases hpart
    | some part =>
      rw [hstart] at hpart
      rcases List.mem_cons.mp hmem with rfl | hmem
      · exact printable_numberStart hstart
      · exact hrest rest part hpart c hmem

theorem printable_hexDigit : ∀ n < 16, Printable (hexDigit n) := by decide

theorem printable_unicodeEscape {unit : ℕ} (h : unit < 0x10000) :
    ∀ c ∈ unicodeEscape unit, Printable c := by
  intro c hmem
  simp only [unicodeEscape, List.mem_cons, List.not_mem_nil, or_false] at hmem
  rcases hmem with rfl | rfl | rfl | rfl | rfl | rfl
  · decide
  · decide
  all_goals exact printable_hexDigit _ (by omega)

theorem printable_escapeChar (d : Char) : ∀ c ∈ escapeChar d, Printable c := by
  have hvalid := not_surrogate d
  intro c hmem
  -- an escape of two characters
  have hpair : ∀ e, Printable e → c ∈ ['\\', e] → Printable c := by
    intro e he hc
    rcases List.mem_cons.mp hc with rfl | hc
    · decide
    · rwa [List.mem_singleton.mp hc]
  unfold escapeChar at hmem
  by_cases hquote : d = '"'
  · rw [if_pos hquote] at hmem
    exact hpair _ (by decide) hmem
  by_cases hslash : d = '\\'
  · rw [if_neg hquote, if_pos hslash] at hmem
    exact hpair _ (by decide) hmem
  by_cases hn : d = '\n'
  · rw [if_neg hquote, if_neg hslash, if_pos hn] at hmem
    exact hpair _ (by decide) hmem
  by_cases hr : d = '\r'
  · rw [if_neg hquote, if_neg hslash, if_neg hn, if_pos hr] at hmem
    exact hpair _ (by decide) hmem
  by_cases ht : d = '\t'
  · rw [if_neg hquote, if_neg hslash, if_neg hn, if_neg hr, if_pos ht] at hmem
    exact hpair _ (by decide) hmem
  rw [if_neg hquote, if_neg hslash, if_neg hn, if_neg hr, if_neg ht] at hmem
  by_cases hb : d.toNat = 8
  · rw [if_pos hb] at hmem
    exact hpair _ (by decide) hmem
  by_cases hf : d.toNat = 12
  · rw [if_neg hb, if_pos hf] at hmem
    exact hpair _ (by decide) hmem
  rw [if_neg hb, if_neg hf] at hmem
  by_cases hplain : 32 ≤ d.toNat ∧ d.toNat ≤ 126
  · rw [if_pos hplain, List.mem_singleton] at hmem
    rwa [hmem]
  rw [if_neg hplain] at hmem
  by_cases hsmall : d.toNat < 0x10000
  · rw [if_pos hsmall] at hmem
    exact printable_unicodeEscape hsmall c hmem
  · rw [if_neg hsmall] at hmem
    rcases List.mem_append.mp hmem with hmem | hmem
    · exact printable_unicodeEscape (by omega) c hmem
    · exact printable_unicodeEscape (by omega) c hmem

theorem printable_dumpsString (text : List Char) : ∀ c ∈ dumpsString text, Printable c := by
  intro c hmem
  rcases List.mem_cons.mp hmem with rfl | hmem
  · decide
  rcases List.mem_append.mp hmem with hmem | hmem
  · obtain ⟨d, -, hd⟩ := List.mem_flatMap.mp hmem
    exact printable_escapeChar d c hd
  · rw [List.mem_singleton.mp hmem]
    decide

theorem printable_dumpsScalar (v : Scalar) : ∀ c ∈ dumpsScalar v, Printable c := by
  cases v with
  | word w => cases w <;> decide
  | num spelling valid => exact printable_number valid
  | str text => exact printable_dumpsString text

theorem printable_dumpsFields (fields : List (List Char × Scalar)) :
    ∀ c ∈ dumpsFields fields, Printable c := by
  have hfield : ∀ (key : List Char) (v : Scalar), ∀ c ∈ dumpsString key ++ ':' :: dumpsScalar v,
      Printable c := by
    intro key v c hmem
    rcases List.mem_append.mp hmem with hmem | hmem
    · exact printable_dumpsString key c hmem
    rcases List.mem_cons.mp hmem with rfl | hmem
    · decide
    · exact printable_dumpsScalar v c hmem
  induction fields with
  | nil => simp [dumpsFields]
  | cons f fields ih =>
    obtain ⟨key, v⟩ := f
    rcases fields with _ | ⟨g, fields⟩
    · exact hfield key v
    · intro c hmem
      rw [dumpsFields] at hmem
      rcases List.mem_append.mp hmem with hmem | hmem
      · exact hfield key v c hmem
      rcases List.mem_cons.mp hmem with rfl | hmem
      · decide
      · exact ih c hmem

/-- **The text is printable ASCII**. -/
theorem printable_dumps (fields : List (List Char × Scalar)) :
    ∀ c ∈ dumps fields, Printable c := by
  intro c hmem
  rcases List.mem_cons.mp hmem with rfl | hmem
  · decide
  rcases List.mem_append.mp hmem with hmem | hmem
  · exact printable_dumpsFields fields c hmem
  · rw [List.mem_singleton.mp hmem]
    decide

end Json

end TraderStack.Lib
