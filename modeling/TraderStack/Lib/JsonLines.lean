import Mathlib.Data.Char
import Mathlib.Data.List.Lex
import Mathlib.Data.List.Sort
import Mathlib.Data.List.TakeWhile
import TraderStack.Lib.JsonText

/-!
# Files of JSON lines

A record is appended to a file as one line. The file may end in the middle of a line, where an
earlier append was cut short.

- `cut_append_line`: a line that is appended ends the open line;
- `strip_append`: what is stripped of a line that ends in a record is blanks before it;
- `Payload`: the fields of a record, with names that start with a letter;
- `Payload.run_line`: the line of a record is read back;
- `Payload.loads_merged`, `Payload.loads_part`: a line that is merged into another, or torn, is
  no object.
-/

namespace TraderStack.Lib

/-! ## Lines -/

namespace Lines

/-- `str.isspace` of a character. -/
def isSpace (c : Char) : Bool :=
  (9 ≤ c.toNat && c.toNat ≤ 13) || (28 ≤ c.toNat && c.toNat ≤ 32) || c.toNat = 0x85
    || c.toNat = 0xA0 || c.toNat = 0x1680 || (0x2000 ≤ c.toNat && c.toNat ≤ 0x200A)
    || c.toNat = 0x2028 || c.toNat = 0x2029 || c.toNat = 0x202F || c.toNat = 0x205F
    || c.toNat = 0x3000

/-- `text.strip()`. -/
def strip (text : List Char) : List Char :=
  ((text.dropWhile isSpace).reverse.dropWhile isSpace).reverse

/-- The line breaks of `str.splitlines`. -/
def isLineBreak (c : Char) : Bool :=
  (10 ≤ c.toNat && c.toNat ≤ 13) || (28 ≤ c.toNat && c.toNat ≤ 30) || c.toNat = 0x85
    || c.toNat = 0x2028 || c.toNat = 0x2029

/-- What is read of a file in text mode. -/
def universalNewlines : List Char → List Char
  | [] => []
  | '\r' :: '\n' :: text => '\n' :: universalNewlines text
  | '\r' :: text => '\n' :: universalNewlines text
  | c :: text => c :: universalNewlines text

/-- The lines that are ended, and what stands after the last line break. -/
def cut (isBreak : Char → Bool) (text : List Char) : List (List Char) × List Char :=
  text.foldl (fun s c => if isBreak c then (s.1 ++ [s.2], []) else (s.1, s.2 ++ [c])) ([], [])

/-- `text.splitlines()`, of a text that was read in text mode. -/
def splitlines (text : List Char) : List (List Char) :=
  let (ended, rest) := cut isLineBreak text
  if rest = [] then ended else ended ++ [rest]

variable {text more : List Char} {isBreak : Char → Bool}

/-- Text without a line break goes on with the open line. -/
theorem cut_append (text : List Char) (h : ∀ c ∈ more, isBreak c = false) :
    cut isBreak (text ++ more) = ((cut isBreak text).1, (cut isBreak text).2 ++ more) := by
  have hfold : ∀ s : List (List Char) × List Char,
      more.foldl (fun s c => if isBreak c then (s.1 ++ [s.2], []) else (s.1, s.2 ++ [c])) s
        = (s.1, s.2 ++ more) := by
    induction more with
    | nil => simp
    | cons c more ih =>
      intro s
      have hc := h c List.mem_cons_self
      rw [List.foldl_cons, ih fun d hd => h d (List.mem_cons_of_mem c hd), hc]
      simp
  rw [cut, List.foldl_append, hfold]
  rfl

/-- **A line that is appended** ends the open line. -/
theorem cut_append_line {b : Char} (h : ∀ c ∈ more, isBreak c = false) (hb : isBreak b = true) :
    cut isBreak (text ++ more ++ [b])
      = ((cut isBreak text).1 ++ [(cut isBreak text).2 ++ more], []) := by
  have happend := cut_append text h
  rw [cut, List.foldl_append, ← cut, happend, List.foldl_cons, List.foldl_nil, if_pos hb]

/-- Text without a carriage return is read as it is. -/
theorem universalNewlines_of_plain (h : ∀ c ∈ text, c ≠ '\r') : universalNewlines text = text := by
  induction text with
  | nil => rfl
  | cons c text ih =>
    have hc := h c List.mem_cons_self
    rw [universalNewlines, ih fun d hd => h d (List.mem_cons_of_mem c hd)]
    · exact fun _ hr _ => hc hr
    · exact fun hr => hc hr

/-- What does not start with a newline is read on its own. -/
theorem universalNewlines_append (h : ∀ rest, more ≠ '\n' :: rest) (text : List Char) :
    universalNewlines (text ++ more) = universalNewlines text ++ universalNewlines more := by
  have hhead : ∀ text rest, (∀ t, text = '\n' :: t → False) → text ++ more = '\n' :: rest →
      False := by
    rintro text rest hnext heq
    rcases text with _ | ⟨d, text⟩
    · exact h rest heq
    · exact hnext text (by rw [(List.cons.inj heq).1])
  fun_induction universalNewlines text with
  | case1 => rfl
  | case2 text ih =>
    rw [List.cons_append, List.cons_append, universalNewlines, ih]
    rfl
  | case3 text hnext ih =>
    rw [List.cons_append, universalNewlines, ih]
    · rfl
    · exact fun rest heq => hhead text rest hnext heq
  | case4 c text h1 h2 ih =>
    rw [List.cons_append, universalNewlines, ih]
    · rfl
    · intro rest hc heq
      exact h2 hc
    · exact h2

/-! ## Stripping -/

/-- Blank text. -/
def Blank (text : List Char) : Prop := ∀ c ∈ text, isSpace c = true

instance (text : List Char) : Decidable (Blank text) :=
  inferInstanceAs (Decidable (∀ c ∈ text, isSpace c = true))

theorem dropWhile_eq_nil (h : Blank text) : text.dropWhile isSpace = [] := by
  rw [List.dropWhile_eq_nil_iff]
  exact h

/-- Of text that is not blank something is left, and it does not start with a space. -/
theorem dropWhile_of_not_blank (h : ¬Blank text) :
    ∃ c rest, text.dropWhile isSpace = c :: rest ∧ isSpace c = false := by
  induction text with
  | nil => exact absurd (fun c hmem => by simp at hmem) h
  | cons c text ih =>
    cases hc : isSpace c with
    | false => exact ⟨c, text, List.dropWhile_cons_of_neg (by simp [hc]), hc⟩
    | true =>
      have hrest : ¬Blank text := fun hb => h (by
        intro d hmem
        rcases List.mem_cons.mp hmem with rfl | hmem
        · exact hc
        · exact hb d hmem)
      rw [List.dropWhile_cons_of_pos hc]
      exact ih hrest

theorem strip_eq_nil_iff : strip text = [] ↔ Blank text := by
  constructor
  · intro h
    by_contra hnot
    obtain ⟨c, rest, hdrop, hc⟩ := dropWhile_of_not_blank hnot
    rw [strip, hdrop, List.reverse_eq_nil_iff, List.dropWhile_eq_nil_iff] at h
    have hspace := h c (by simp)
    rw [hc] at hspace
    cases hspace
  · intro h
    rw [strip, dropWhile_eq_nil h]
    rfl

theorem dropWhile_append_first {c : Char} {rest : List Char} (hc : isSpace c = false)
    (text : List Char) :
    (text ++ c :: rest).dropWhile isSpace = text.dropWhile isSpace ++ c :: rest := by
  induction text with
  | nil => exact List.dropWhile_cons_of_neg (by simp [hc])
  | cons d text ih =>
    rw [List.cons_append]
    cases hd : isSpace d with
    | false =>
      rw [List.dropWhile_cons_of_neg (by simp [hd]), List.dropWhile_cons_of_neg (by simp [hd])]
      rfl
    | true => rw [List.dropWhile_cons_of_pos hd, List.dropWhile_cons_of_pos hd, ih]

/-- **What is stripped** of a line that ends in something without spaces around it is what
stands before. -/
theorem strip_append {c d : Char} {middle : List Char} (hc : isSpace c = false)
    (hd : isSpace d = false) (text : List Char) :
    strip (text ++ c :: (middle ++ [d])) = text.dropWhile isSpace ++ c :: (middle ++ [d]) := by
  have hlast : (text.dropWhile isSpace ++ c :: (middle ++ [d])).reverse
      = d :: (middle.reverse ++ c :: (text.dropWhile isSpace).reverse) := by
    simp [List.reverse_append]
  rw [strip, dropWhile_append_first hc, hlast, List.dropWhile_cons_of_neg (by simp [hd]), ← hlast,
    List.reverse_reverse]

end Lines

/-! ## Records -/

open Json

/-- A field's name starts with a letter. -/
def IsName (name : List Char) : Prop := ∃ d rest, name = d :: rest ∧ d.isAlpha = true

instance : DecidablePred IsName
  | [] => isFalse fun ⟨_, _, h, _⟩ => by cases h
  | d :: rest =>
    decidable_of_iff (d.isAlpha = true) ⟨fun h => ⟨d, rest, rfl, h⟩, fun ⟨_, _, h, hd⟩ => by
      cases h
      exact hd⟩

/-- The fields of a record, with distinct names. -/
structure Payload where
  fields : List (List Char × Scalar)
  nonempty : fields ≠ []
  distinct : (fields.map Prod.fst).Nodup
  named : ∀ name ∈ fields.map Prod.fst, IsName name

namespace Payload

theorem set_ne_nil (name : List Char) (value : Scalar) (fields : List (List Char × Scalar)) :
    Assoc.set name value fields ≠ [] := by
  intro h
  have hget := Assoc.get_set_self name value fields
  rw [h] at hget
  cases hget

theorem named_set {name : List Char} (hname : IsName name) (value : Scalar)
    {fields : List (List Char × Scalar)} (h : ∀ other ∈ fields.map Prod.fst, IsName other) :
    ∀ other ∈ (Assoc.set name value fields).map Prod.fst, IsName other := by
  intro other hmem
  rw [Assoc.keys_set] at hmem
  split at hmem
  · exact h other hmem
  · rcases List.mem_append.mp hmem with hmem | hmem
    · exact h other hmem
    · rw [List.mem_singleton.mp hmem]
      exact hname

/-- `payload[name] = value`. -/
def set (p : Payload) (name : List Char) (hname : IsName name) (value : Scalar) : Payload where
  fields := Assoc.set name value p.fields
  nonempty := set_ne_nil name value p.fields
  distinct := Assoc.nodup_set _ _ p.distinct
  named := named_set hname value p.named

/-- The fields in order of their names. -/
def sorted (p : Payload) : List (List Char × Scalar) :=
  p.fields.insertionSort fun f g => f.1 ≤ g.1

/-- `json.dumps(payload, separators=(",", ":"), sort_keys=True)`. -/
def line (p : Payload) : List Char := dumps p.sorted

/-- The object that is read back. -/
def loaded (p : Payload) : List (List ℕ × Json) := p.sorted.map fun f => (points f.1, f.2.toJson)

variable (p : Payload)

theorem perm_sorted : p.sorted.Perm p.fields := List.perm_insertionSort _ _

theorem nodup_points : (p.sorted.map fun f => points f.1).Nodup := by
  have hkeys : (p.sorted.map Prod.fst).Nodup :=
    ((p.perm_sorted.map Prod.fst).nodup_iff).mpr p.distinct
  have hpoints := hkeys.map points_injective
  rwa [List.map_map] at hpoints

/-- A field is read back under its name. -/
theorem get_loaded {f : List Char × Scalar} (h : f ∈ p.fields) :
    Assoc.get (points f.1) p.loaded = some f.2.toJson := by
  refine Assoc.get_of_mem ?_ (List.mem_map.mpr ⟨f, p.perm_sorted.mem_iff.mpr h, rfl⟩)
  rw [loaded, List.map_map]
  exact p.nodup_points

/-- The line is read as the record's object. -/
theorem run_line : run start p.line = .ok ⟨.done (.obj p.loaded), []⟩ := by
  rw [line, run_dumps, foldl_set_fresh p.sorted [] p.nodup_points]
  rfl

/-- The line stands between braces. -/
theorem exists_line : ∃ middle, p.line = '{' :: (middle ++ ['}']) := ⟨dumpsFields p.sorted, rfl⟩

/-- The line starts as an object whose first name starts with a letter. -/
theorem line_opening : ∃ d text, d.isAlpha = true ∧ p.line = '{' :: '"' :: d :: text := by
  have hne : p.sorted ≠ [] := by
    intro h
    have hperm := p.perm_sorted
    rw [h] at hperm
    exact p.nonempty hperm.nil_eq.symm
  rcases hsorted : p.sorted with _ | ⟨⟨key, v⟩, rest⟩
  · exact absurd hsorted hne
  · have hmem : (key, v) ∈ p.fields := by
      rw [← p.perm_sorted.mem_iff, hsorted]
      exact List.mem_cons_self
    obtain ⟨d, name, rfl, hd⟩ := p.named key (List.mem_map.mpr ⟨_, hmem, rfl⟩)
    obtain ⟨text, htext⟩ := dumps_opening hd name v rest
    exact ⟨d, text, hd, by rw [line, hsorted, htext]⟩

theorem printable_line : ∀ c ∈ p.line, Printable c := printable_dumps p.sorted

/-- The line has no newline of its own. -/
theorem not_newline_of_mem_line : ∀ c ∈ p.line, decide (c = '\n') = false := by
  intro c hmem
  rw [decide_eq_false_iff_not]
  rintro rfl
  exact absurd (p.printable_line _ hmem).1 (by decide)

/-- What is written of the line, with anything after it, starts as an object does. -/
theorem opensObject_of_append {written rest after : List Char}
    (h : written ++ rest = p.line ++ after) (hne : written ≠ []) : OpensObject written := by
  obtain ⟨d, text, hd, hline⟩ := p.line_opening
  refine OpensObject.of_append rest ?_ hne
  rw [h, hline]
  exact ⟨rfl, rfl, hd⟩

theorem opensObject_line : OpensObject p.line := by
  obtain ⟨d, text, hd, hline⟩ := p.line_opening
  rw [hline]
  exact ⟨rfl, rfl, hd⟩

/-- What is written of the line, with blanks after it, is read so far. -/
theorem exists_run_written {written rest after : List Char}
    (h : written ++ rest = p.line ++ after) (hafter : ∀ c ∈ after, isBlank c = true) :
    ∃ r, run start written = .ok r := by
  have hwhole : run start (written ++ rest) = .ok ⟨.done (.obj p.loaded), []⟩ := by
    rw [h, run_append, p.run_line]
    simp only
    rw [run_done, if_pos hafter]
  rw [run_append] at hwhole
  cases hrun : run start written with
  | error e =>
    rw [hrun] at hwhole
    cases hwhole
  | ok r => exact ⟨r, rfl⟩

/-- The line is read with blanks around it. -/
theorem loads_line {before after : List Char} (hbefore : ∀ c ∈ before, isBlank c = true)
    (hafter : ∀ c ∈ after, isBlank c = true) :
    loads (before ++ p.line ++ after) = .ok (.obj p.loaded) := by
  rw [loads, List.append_assoc, run_append, run_blanks hbefore]
  simp only
  rw [run_append, p.run_line]
  simp only
  rw [run_done, if_pos hafter]
  rfl

/-- **The line written after something other than blanks** is no object. -/
theorem loads_merged {before written rest after : List Char}
    (h : written ++ rest = p.line ++ after) (hne : written ≠ [])
    (hafter : ∀ c ∈ after, isBlank c = true) (hbefore : ∃ c ∈ before, isBlank c = false)
    (u : List (List ℕ × Json)) : loads (before ++ written) ≠ .ok (.obj u) := by
  obtain ⟨r, hrun⟩ := p.exists_run_written h hafter
  exact loads_merged_ne_obj (p.opensObject_of_append h hne) hrun hbefore u

/-- **A part of the line**, after blanks, is no object. -/
theorem loads_part {before written rest : List Char} (h : written ++ rest = p.line)
    (hne : rest ≠ []) (hbefore : ∀ c ∈ before, isBlank c = true) (u : List (List ℕ × Json)) :
    loads (before ++ written) ≠ .ok (.obj u) := by
  have hobject : run start (before ++ written ++ rest) = .ok ⟨.done (.obj p.loaded), []⟩ := by
    rw [List.append_assoc, h, run_append, run_blanks hbefore]
    exact p.run_line
  refine loads_torn_ne_obj hobject ⟨'}', ?_, rfl⟩ u
  -- the last character of the line is a brace
  obtain ⟨middle, hline⟩ := p.exists_line
  rcases List.eq_nil_or_concat rest with rfl | ⟨front, last, rfl⟩
  · exact absurd rfl hne
  · rw [hline, List.concat_eq_append, ← List.append_assoc, ← List.cons_append] at h
    have hlast := (List.append_inj' h rfl).2
    rw [List.concat_eq_append, hlast]
    simp

/-- In text mode what is written of a record is read as it was written. -/
theorem universalNewlines_written {written : List Char} (text rest : List Char)
    (h : written ++ rest = p.line ++ ['\n']) (hne : written ≠ []) :
    Lines.universalNewlines (text ++ written) = Lines.universalNewlines text ++ written := by
  have hhead : ∀ more, written ≠ '\n' :: more := by
    rintro more rfl
    obtain ⟨middle, hline⟩ := p.exists_line
    rw [hline] at h
    exact absurd (List.cons.inj h).1 (by decide)
  have hplain : ∀ c ∈ written, c ≠ '\r' := by
    rintro c hmem rfl
    have hwhole : '\r' ∈ p.line ++ ['\n'] := h ▸ List.mem_append_left rest hmem
    rcases List.mem_append.mp hwhole with hmem | hmem
    · exact absurd (p.printable_line _ hmem).1 (by decide)
    · exact absurd (List.mem_singleton.mp hmem) (by decide)
  rw [Lines.universalNewlines_append hhead, Lines.universalNewlines_of_plain hplain]

/-- The same for the whole line. -/
theorem universalNewlines_line (text : List Char) :
    Lines.universalNewlines (text ++ (p.line ++ ['\n']))
      = Lines.universalNewlines text ++ p.line ++ ['\n'] := by
  rw [p.universalNewlines_written text [] (List.append_nil _) (by simp),
    List.append_assoc]

end Payload

/-- A space begins no value. -/
theorem beginValue_of_isSpace {c : Char} (h : Lines.isSpace c = true) (stack : List Frame) :
    beginValue c stack = .error .decode := by
  have hne : ∀ d : Char, Lines.isSpace d = false → c ≠ d := by
    rintro d hd rfl
    rw [h] at hd
    cases hd
  have hdigit : c.isDigit = false := by
    by_contra hd
    have hrange := printable_of_isDigit (c := c) (by simpa using hd)
    have hlow : '0'.toNat ≤ c.toNat := by
      simp only [Bool.not_eq_false, Char.isDigit, Bool.and_eq_true, decide_eq_true_eq] at hd
      exact hd.1
    have h48 : '0'.toNat = 48 := rfl
    simp only [Lines.isSpace, Bool.or_eq_true, Bool.and_eq_true, decide_eq_true_eq] at h
    have := hrange.2
    omega
  have hstart : NumberPart.start c = none := by
    rw [NumberPart.start, if_neg (hne '-' (by decide)), if_neg (hne '0' (by decide)),
      if_neg (by simp [hdigit])]
  simp only [beginValue, if_neg (hne '{' (by decide)), if_neg (hne '[' (by decide)),
    if_neg (hne '"' (by decide)), if_neg (hne 'n' (by decide)), if_neg (hne 't' (by decide)),
    if_neg (hne 'f' (by decide)), if_neg (hne 'N' (by decide)), if_neg (hne 'I' (by decide)),
    hstart]

/-- Blank text is no JSON text. -/
theorem loads_blank {text : List Char} (h : Lines.Blank text) (v : Json) : loads text ≠ .ok v := by
  have hrun : run start text = .ok start ∨ run start text = .error .decode := by
    induction text with
    | nil => exact .inl rfl
    | cons c text ih =>
      rw [run]
      cases hblank : isBlank c with
      | true =>
        have hstep : step start c = .ok start := if_pos hblank
        rw [hstep]
        exact ih fun d hd => h d (List.mem_cons_of_mem c hd)
      | false =>
        have hstep : step start c = beginValue c [] := if_neg (by simp [hblank])
        rw [hstep, beginValue_of_isSpace (h c List.mem_cons_self)]
        exact .inr rfl
  rw [loads]
  rcases hrun with hrun | hrun
  · rw [hrun]
    exact fun h => by cases h
  · rw [hrun]
    exact fun h => by cases h

end TraderStack.Lib
