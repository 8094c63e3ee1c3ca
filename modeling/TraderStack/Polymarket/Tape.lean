import TraderStack.Lib.JsonLines
import TraderStack.Models

/-!
# The weather tapes (polymarket/tape.py)

Two files of JSON lines: observations of open markets, and rows of resolved markets. The reader
skips a line that is not JSON, such as the torn end of an append that was cut short; the writer
appends its line to whatever the file ends in. A file is its decoded text. What pydantic does is
a parameter: the payload it makes of a row, and the row it makes of an object.

- `readRows_ok_iff`: what is read of a file, line by line;
- `readLine_append_blank`: a row's line that stands alone, or after blanks, is read;
- `lineObject_append_open`: **a row's line merged into an open line** is lost;
- `tapes_keep_rows_iff`: **the law of the tapes** holds exactly for files whose lines can all be
  read and that do not end in an open line.
-/

namespace TraderStack

open Lib Lib.Json Lib.Lines

/-! ## Rows -/

/-- The contract families of a temperature market. -/
inductive TemperatureContract where
  | thresholdOrHigher
  | bucket
  | thresholdOrLower
deriving DecidableEq, Repr

/-- `TapeObservation` (tape.py:39–74). A date is a day number. -/
structure TapeObservation where
  schemaVersion : ℤ
  tapeKind : String
  venue : String
  tradingMode : String
  venueSubmitted : Bool
  eventId : String
  marketId : String
  conditionId : String
  citySlug : String
  stationIcao : String
  eventDate : ℤ
  contract : TemperatureContract
  thresholdF : Option ℚ
  bucketLowF : Option ℚ
  bucketHighF : Option ℚ
  yesTokenId : String
  noTokenId : String
  observedAt : Time
  clobMid : ℚ
  bestBid : ℚ
  bestAsk : ℚ
  halfSpread : ℚ
  forecastHighF : ℚ
  forecastModel : String
  forecastSource : String
  forecastIssuedAt : Time
  closeAt : Time
  leadHours : ℚ
  question : String
deriving DecidableEq

/-- `ResolvedTapeRow` (tape.py:77–86). -/
structure ResolvedTapeRow extends TapeObservation where
  officialHighF : ℚ
  stationId : String
  resolutionSource : String
  crosscheckHighF : Option ℚ
  crosscheckSource : String
  resolutionMismatch : Option ℚ
  resolvedAt : Time
deriving DecidableEq

/-! ## Files -/

/-- What the tapes raise. -/
inductive TapeError where
  | venueSubmitted
  | nonPaper
  | observedAfterClose
  | forecastAfterClose
  /-- `UnicodeDecodeError`. -/
  | undecodable
  /-- `TypeError`: a line that is JSON but no object. -/
  | notAnObject
  /-- `ValueError`: an integer with too many digits. -/
  | digits
  /-- `ValidationError`. -/
  | invalid
deriving DecidableEq, Repr

/-- A tape's file. What does not decode as UTF-8 still does not when ASCII is appended. -/
inductive TapeFile where
  | missing
  | text (content : List Char)
  | undecodable
deriving DecidableEq

/-- `open("a")` and one write. -/
def TapeFile.append (file : TapeFile) (written : List Char) : TapeFile :=
  match file with
  | .missing => .text written
  | .text content => .text (content ++ written)
  | .undecodable => .undecodable

/-- What is made of one line (lines 208–220): `none` where it is skipped. -/
def readLine (line : List Char) : Except TapeError (Option (List (List ℕ × Json))) :=
  let text := strip line
  if text = [] then .ok none
  else
    match loads text with
    | .error .decode => .ok none
    | .error .digits => .error .digits
    | .ok (.obj fields) => .ok (some fields)
    | .ok _ => .error .notAnObject

/-- The objects of some lines. -/
def readLines : List (List Char) → Except TapeError (List (List (List ℕ × Json)))
  | [] => .ok []
  | line :: lines =>
    match readLine line, readLines lines with
    | .error e, _ => .error e
    | .ok _, .error e => .error e
    | .ok none, .ok rows => .ok rows
    | .ok (some fields), .ok rows => .ok (fields :: rows)

/-- `_read_jsonl` (lines 204–221). -/
def readJsonl : TapeFile → Except TapeError (List (List (List ℕ × Json)))
  | .missing => .ok []
  | .undecodable => .error .undecodable
  | .text content => readLines (splitlines (universalNewlines content))

/-- What pydantic does with rows of one model: `model_dump(mode="json")`, and `model_validate`,
`none` where it raises. -/
structure RowModel (Row : Type) where
  dump : Row → Lib.Payload
  validate : List (List ℕ × Json) → Option Row

variable {Row : Type}

/-- Every object is validated. -/
def validateAll (model : RowModel Row) : List (List (List ℕ × Json)) → Except TapeError (List Row)
  | [] => .ok []
  | fields :: rest =>
    match model.validate fields, validateAll model rest with
    | none, _ => .error .invalid
    | some _, .error e => .error e
    | some row, .ok rows => .ok (row :: rows)

/-- `read` of either tape (lines 173–174, 183–184). -/
def readRows (model : RowModel Row) (file : TapeFile) : Except TapeError (List Row) :=
  match readJsonl file with
  | .error e => .error e
  | .ok objects => validateAll model objects

theorem isName_venueSubmitted : IsName "venue_submitted".toList :=
  ⟨'v', "enue_submitted".toList, by decide, by decide⟩

/-- The line of a row, with `venue_submitted` set to false. -/
def rowLine (model : RowModel Row) (row : Row) : Lib.Payload :=
  (model.dump row).set "venue_submitted".toList isName_venueSubmitted (.word .false)

namespace PolymarketWeatherTape

/-- `read` (lines 173–174). -/
def read (model : RowModel TapeObservation) (file : TapeFile) :
    Except TapeError (List TapeObservation) := readRows model file

/-- What `append_sync` refuses (lines 157–164). -/
def refuses (observation : TapeObservation) : Option TapeError :=
  if observation.venueSubmitted then some .venueSubmitted
  else if observation.tradingMode ≠ "paper" then some .nonPaper
  else if observation.closeAt ≤ observation.observedAt then some .observedAfterClose
  else if observation.closeAt ≤ observation.forecastIssuedAt then some .forecastAfterClose
  else none

/-- `append_sync` (lines 156–171). -/
def appendSync (model : RowModel TapeObservation) (observation : TapeObservation)
    (file : TapeFile) : Except TapeError TapeFile :=
  match refuses observation with
  | some e => .error e
  | none => .ok (file.append ((rowLine model observation).line ++ ['\n']))

end PolymarketWeatherTape

namespace PolymarketWeatherResolvedTape

/-- `read` (lines 183–184). -/
def read (model : RowModel ResolvedTapeRow) (file : TapeFile) :
    Except TapeError (List ResolvedTapeRow) := readRows model file

/-- `resolved_market_ids` (lines 186–187). -/
def resolvedMarketIds (model : RowModel ResolvedTapeRow) (file : TapeFile) :
    Except TapeError (List String) :=
  (read model file).map fun rows => rows.map fun row => row.marketId

/-- `append_sync` (lines 189–199). -/
def appendSync (model : RowModel ResolvedTapeRow) (row : ResolvedTapeRow) (file : TapeFile) :
    Except TapeError TapeFile :=
  if row.venueSubmitted ∨ row.tradingMode ≠ "paper" then .error .nonPaper
  else .ok (file.append ((rowLine model row).line ++ ['\n']))

end PolymarketWeatherResolvedTape

/-! ## What is read -/

/-- The object of a line, if it is read as one. -/
def lineObject (line : List Char) : Option (List (List ℕ × Json)) :=
  match readLine line with
  | .ok object => object
  | .error _ => none

/-- The row of a line, if it has one. -/
def lineRow (model : RowModel Row) (line : List Char) : Option Row :=
  (lineObject line).bind model.validate

/-- A line that the reader skips, or reads as a row. -/
def Reads (model : RowModel Row) (line : List Char) : Prop :=
  match readLine line with
  | .ok none => True
  | .ok (some fields) => (model.validate fields).isSome
  | .error _ => False

/-- What stands after the last line break of a text. -/
def openLine (content : List Char) : List Char := (cut isLineBreak (universalNewlines content)).2

/-- The lines of a text that are ended. -/
def endedLines (content : List Char) : List (List Char) :=
  (cut isLineBreak (universalNewlines content)).1

/-- The lines that are read. -/
def tapeLines (content : List Char) : List (List Char) := splitlines (universalNewlines content)

variable {model : RowModel Row} {content : List Char} {row : Row}

theorem tapeLines_eq (content : List Char) :
    tapeLines content =
      if openLine content = [] then endedLines content
      else endedLines content ++ [openLine content] := rfl

theorem readLines_ok_iff {lines : List (List Char)} {objects : List (List (List ℕ × Json))} :
    readLines lines = .ok objects ↔
      (∀ line ∈ lines, ∃ object, readLine line = .ok object) ∧
        objects = lines.filterMap lineObject := by
  induction lines generalizing objects with
  | nil =>
    constructor
    · rintro ⟨⟩
      exact ⟨by simp, rfl⟩
    · rintro ⟨-, rfl⟩
      rfl
  | cons line lines ih =>
    rw [List.forall_mem_cons, readLines, List.filterMap_cons, lineObject]
    cases hline : readLine line with
    | error e => simp
    | ok object =>
      cases hrest : readLines lines with
      | error e =>
        have hnot : ¬∀ line ∈ lines, ∃ object, readLine line = .ok object := by
          intro hall
          have hok : readLines lines = .ok (lines.filterMap lineObject) := ih.mpr ⟨hall, rfl⟩
          rw [hrest] at hok
          cases hok
        simp [hnot]
      | ok rest =>
        obtain ⟨hall, rfl⟩ := ih.mp hrest
        constructor
        · intro h
          refine ⟨⟨⟨object, rfl⟩, hall⟩, ?_⟩
          cases object <;> exact (Except.ok.inj h).symm
        · rintro ⟨-, rfl⟩
          cases object <;> rfl

theorem validateAll_ok_iff {objects : List (List (List ℕ × Json))} {rows : List Row} :
    validateAll model objects = .ok rows ↔
      (∀ object ∈ objects, (model.validate object).isSome) ∧
        rows = objects.filterMap model.validate := by
  induction objects generalizing rows with
  | nil =>
    constructor
    · rintro ⟨⟩
      exact ⟨by simp, rfl⟩
    · rintro ⟨-, rfl⟩
      rfl
  | cons object objects ih =>
    rw [List.forall_mem_cons, validateAll, List.filterMap_cons]
    cases hobject : model.validate object with
    | none => simp
    | some row =>
      cases hrest : validateAll model objects with
      | error e =>
        have hnot : ¬∀ object ∈ objects, (model.validate object).isSome := by
          intro hall
          have hok : validateAll model objects = .ok (objects.filterMap model.validate) :=
            ih.mpr ⟨hall, rfl⟩
          rw [hrest] at hok
          cases hok
        simp [hnot]
      | ok rest =>
        obtain ⟨hall, rfl⟩ := ih.mp hrest
        constructor
        · intro h
          exact ⟨⟨rfl, hall⟩, (Except.ok.inj h).symm⟩
        · rintro ⟨-, rfl⟩
          rfl

/-- **What is read of a file**: every line is skipped or read, and the rows are those of the
lines. -/
theorem readRows_ok_iff {rows : List Row} :
    readRows model (.text content) = .ok rows ↔
      (∀ line ∈ tapeLines content, Reads model line) ∧
        rows = (tapeLines content).filterMap (lineRow model) := by
  have hreads : ∀ line, Reads model line ↔
      (∃ object, readLine line = .ok object) ∧
        ∀ object ∈ lineObject line, (model.validate object).isSome := by
    intro line
    unfold Reads lineObject
    cases readLine line with
    | error e => simp
    | ok object => cases object <;> simp
  have hrow : (tapeLines content).filterMap (lineRow model)
      = ((tapeLines content).filterMap lineObject).filterMap model.validate := by
    rw [List.filterMap_filterMap]
    rfl
  rw [hrow, readRows, readJsonl]
  constructor
  · intro h
    cases hlines : readLines (splitlines (universalNewlines content)) with
    | error e =>
      rw [hlines] at h
      cases h
    | ok objects =>
      rw [hlines] at h
      obtain ⟨hok, rfl⟩ := readLines_ok_iff.mp hlines
      obtain ⟨hvalid, hrows⟩ := validateAll_ok_iff.mp h
      refine ⟨fun line hmem => (hreads line).mpr ⟨hok line hmem, fun object hobject => ?_⟩, hrows⟩
      exact hvalid object (List.mem_filterMap.mpr ⟨line, hmem, hobject⟩)
  · rintro ⟨hall, hrows⟩
    have hlines := readLines_ok_iff.mpr
      ⟨fun line (hmem : line ∈ tapeLines content) => ((hreads line).mp (hall line hmem)).1, rfl⟩
    rw [show splitlines (universalNewlines content) = tapeLines content from rfl, hlines]
    refine validateAll_ok_iff.mpr ⟨fun object hmem => ?_, hrows⟩
    obtain ⟨line, hline, hobject⟩ := List.mem_filterMap.mp hmem
    exact ((hreads line).mp (hall line hline)).2 object hobject

/-! ## Appending a row -/

/-- No character of a row's line ends a line. -/
theorem isLineBreak_of_printable {c : Char} (h : Printable c) : isLineBreak c = false := by
  obtain ⟨hlow, hhigh⟩ := h
  simp only [isLineBreak, Bool.or_eq_false_iff, Bool.and_eq_false_iff, decide_eq_false_iff_not]
  omega

/-- The lines of a file after a row was appended. -/
theorem tapeLines_append (content : List Char) (payload : Lib.Payload) :
    tapeLines (content ++ (payload.line ++ ['\n']))
      = endedLines content ++ [openLine content ++ payload.line] := by
  have hplain : ∀ c ∈ payload.line, isLineBreak c = false :=
    fun c hmem => isLineBreak_of_printable (payload.printable_line c hmem)
  rw [tapeLines, payload.universalNewlines_line, splitlines, cut_append_line hplain rfl]
  rfl

/-- What the reader strips of an open line that a row was appended to. -/
theorem strip_append_line (before : List Char) (payload : Lib.Payload) :
    strip (before ++ payload.line) = before.dropWhile isSpace ++ payload.line := by
  obtain ⟨middle, hline⟩ := payload.exists_line
  rw [hline]
  exact strip_append (by decide) (by decide) before

/-- A row's line that stands alone, or after blanks, is read as its object. -/
theorem readLine_append_blank {before : List Char} (h : Blank before) (payload : Lib.Payload) :
    readLine (before ++ payload.line) = .ok (some payload.loaded) := by
  have hstrip : strip (before ++ payload.line) = payload.line := by
    rw [strip_append_line, dropWhile_eq_nil h, List.nil_append]
  have hne : payload.line ≠ [] := by
    obtain ⟨middle, hline⟩ := payload.exists_line
    rw [hline]
    exact List.cons_ne_nil _ _
  have hloads : loads payload.line = .ok (.obj payload.loaded) := by
    rw [loads, payload.run_line]
    rfl
  simp only [readLine, hstrip, if_neg hne, hloads]

/-- What is a blank of JSON is a space. -/
theorem isSpace_of_isBlank {c : Char} (h : isBlank c = true) : isSpace c = true := by
  simp only [isBlank, Bool.or_eq_true, decide_eq_true_eq] at h
  rcases h with ((rfl | rfl) | rfl) | rfl <;> rfl

/-- **A row's line merged into an open line** is read as no object. -/
theorem lineObject_append_open {before : List Char} (h : ¬Blank before) (payload : Lib.Payload) :
    lineObject (before ++ payload.line) = none := by
  obtain ⟨c, rest, hdrop, hc⟩ := dropWhile_of_not_blank h
  have hnot : ∃ d ∈ before.dropWhile isSpace, isBlank d = false := by
    refine ⟨c, by rw [hdrop]; exact List.mem_cons_self, ?_⟩
    by_contra hblank
    rw [isSpace_of_isBlank (by simpa using hblank)] at hc
    cases hc
  have hmerged := loads_merged_ne_obj payload.opensObject_line payload.run_line hnot
  unfold lineObject readLine
  rw [strip_append_line]
  simp only
  split_ifs
  · rfl
  · cases hloads : loads (before.dropWhile isSpace ++ payload.line) with
    | error e => cases e <;> rfl
    | ok value =>
      cases value with
      | obj fields => exact absurd hloads (hmerged fields)
      | _ => rfl

/-- A blank line has no row and is skipped. -/
theorem lineRow_of_blank {line : List Char} (h : Blank line) : lineRow model line = none := by
  have hread : readLine line = .ok none := by
    simp only [readLine, strip_eq_nil_iff.mpr h, if_true]
  simp only [lineRow, lineObject, hread, Option.bind_none]

/-- The rows of an open line that is blank are none. -/
theorem rows_of_blank (h : Blank (openLine content)) :
    (tapeLines content).filterMap (lineRow model)
      = (endedLines content).filterMap (lineRow model) := by
  rw [tapeLines_eq]
  split_ifs
  · rfl
  · rw [List.filterMap_append, List.filterMap_cons_none (lineRow_of_blank h),
      List.filterMap_nil, List.append_nil]

/-- What pydantic makes of a row it can make a row of again. -/
def Rereads (model : RowModel Row) (row : Row) : Prop :=
  model.validate (rowLine model row).loaded = some row

/-- **The law of a tape**: the rows that were read before are read, and then the new one. -/
def KeepsRows (model : RowModel Row) (file file' : TapeFile) (row : Row) : Prop :=
  ∃ rows, readRows model file = .ok rows ∧ readRows model file' = .ok (rows ++ [row])

/-- Every line of the file is skipped or read as a row, and it does not end in an open line. -/
def Whole (model : RowModel Row) : TapeFile → Prop
  | .missing => True
  | .undecodable => False
  | .text content => (∀ line ∈ tapeLines content, Reads model line) ∧ Blank (openLine content)

theorem keepsRows_text_iff (hrereads : Rereads model row) :
    KeepsRows model (.text content) (.text (content ++ ((rowLine model row).line ++ ['\n']))) row
      ↔ Whole model (.text content) := by
  have hlines := tapeLines_append content (rowLine model row)
  constructor
  · rintro ⟨rows, hbefore, hafter⟩
    obtain ⟨hreads, hrows⟩ := readRows_ok_iff.mp hbefore
    obtain ⟨-, hrows'⟩ := readRows_ok_iff.mp hafter
    refine ⟨hreads, ?_⟩
    by_contra hopen
    -- the merged line has no row, so there are no more rows than before
    have hnone : lineRow model (openLine content ++ (rowLine model row).line) = none := by
      rw [lineRow, lineObject_append_open hopen, Option.bind_none]
    rw [hlines, List.filterMap_append, List.filterMap_cons_none hnone, List.filterMap_nil,
      List.append_nil] at hrows'
    have hle : ((endedLines content).filterMap (lineRow model)).length ≤ rows.length := by
      rw [hrows, tapeLines_eq]
      split_ifs
      · exact le_refl _
      · rw [List.filterMap_append, List.length_append]
        omega
    have hlen := congrArg List.length hrows'
    rw [List.length_append, List.length_singleton] at hlen
    omega
  · rintro ⟨hreads, hopen⟩
    have hnew : lineRow model (openLine content ++ (rowLine model row).line)
        = some row := by
      simp only [lineRow, lineObject, readLine_append_blank hopen, Option.bind_some]
      exact hrereads
    refine ⟨_, readRows_ok_iff.mpr ⟨hreads, rfl⟩, readRows_ok_iff.mpr ⟨?_, ?_⟩⟩
    · rw [hlines]
      intro line hmem
      rcases List.mem_append.mp hmem with hmem | hmem
      · refine hreads line ?_
        rw [tapeLines_eq]
        split_ifs
        · exact hmem
        · exact List.mem_append_left _ hmem
      · rw [List.mem_singleton.mp hmem, Reads, readLine_append_blank hopen]
        simp only
        rw [hrereads]
        rfl
    · rw [hlines, List.filterMap_append, List.filterMap_cons_some hnew, List.filterMap_nil,
        rows_of_blank hopen]

/-- The law of a tape, whatever its file. -/
theorem keepsRows_append_iff (hrereads : Rereads model row) (file : TapeFile) :
    KeepsRows model file (file.append ((rowLine model row).line ++ ['\n'])) row
      ↔ Whole model file := by
  cases file with
  | text content => exact keepsRows_text_iff hrereads
  | missing =>
    have hempty : KeepsRows model (.text [])
        (.text ([] ++ ((rowLine model row).line ++ ['\n']))) row ↔ Whole model (.text []) :=
      keepsRows_text_iff hrereads
    have hwhole : Whole model (.text []) :=
      ⟨by simp [tapeLines, splitlines, universalNewlines, cut],
        by simp [Blank, openLine, universalNewlines, cut]⟩
    exact ⟨fun _ => trivial, fun _ => hempty.mpr hwhole⟩
  | undecodable =>
    constructor
    · rintro ⟨rows, hbefore, -⟩
      cases hbefore
    · exact False.elim

/-- **The tapes keep their rows** exactly when every line of the file can be read and the file
does not end in an open line; a market that is recorded as resolved is then known as such. -/
theorem tapes_keep_rows_iff (observations : RowModel TapeObservation)
    (resolved : RowModel ResolvedTapeRow) (file : TapeFile) :
    (∀ observation file', Rereads observations observation →
        PolymarketWeatherTape.appendSync observations observation file = .ok file' →
          (KeepsRows observations file file' observation ↔ Whole observations file)) ∧
      ∀ row file', Rereads resolved row →
        PolymarketWeatherResolvedTape.appendSync resolved row file = .ok file' →
          (KeepsRows resolved file file' row ↔ Whole resolved file) ∧
            (Whole resolved file → ∃ ids,
              PolymarketWeatherResolvedTape.resolvedMarketIds resolved file = .ok ids ∧
                PolymarketWeatherResolvedTape.resolvedMarketIds resolved file'
                  = .ok (ids ++ [row.marketId])) := by
  constructor
  · intro observation file' hrereads happend
    unfold PolymarketWeatherTape.appendSync at happend
    split at happend
    · cases happend
    · cases happend
      exact keepsRows_append_iff hrereads file
  · intro row file' hrereads happend
    unfold PolymarketWeatherResolvedTape.appendSync at happend
    split at happend
    · cases happend
    · cases happend
      have hkeeps := keepsRows_append_iff hrereads file
      refine ⟨hkeeps, fun hwhole => ?_⟩
      obtain ⟨rows, hbefore, hafter⟩ := hkeeps.mpr hwhole
      refine ⟨rows.map fun row => row.marketId, ?_, ?_⟩
      · rw [PolymarketWeatherResolvedTape.resolvedMarketIds, PolymarketWeatherResolvedTape.read,
          hbefore]
        rfl
      · rw [PolymarketWeatherResolvedTape.resolvedMarketIds, PolymarketWeatherResolvedTape.read,
          hafter]
        simp only [Except.map, List.map_append, List.map_cons, List.map_nil]

/-! ## A tape whose last row was torn -/

namespace Swallowed

/-- `repr` of the numbers of the sample. -/
def float (x : ℚ) : Json.Scalar :=
  if x = 0 then .number "0.0"
  else if x = 1 / 2 then .number "0.5"
  else if x = 6 then .number "6.0"
  else .number "70.0"

/-- An optional number. -/
def optional (x : Option ℚ) : Json.Scalar := x.elim (.word .null) float

/-- The end of the local day. -/
def midnight : Time := 1789531200

/-- A moment of the sample, in ISO format. -/
def stamp (t : Time) : Json.Scalar :=
  .str (if t = midnight then "2026-09-16T04:00:00Z" else "2026-09-15T22:00:00Z").toList

/-- The fields of an observation. -/
def fields (o : TapeObservation) : List (List Char × Json.Scalar) :=
  [("schema_version".toList, .number "1"), ("tape_kind".toList, .str o.tapeKind.toList),
    ("venue".toList, .str o.venue.toList), ("trading_mode".toList, .str o.tradingMode.toList),
    ("venue_submitted".toList, .word (if o.venueSubmitted then .true else .false)),
    ("event_id".toList, .str o.eventId.toList), ("market_id".toList, .str o.marketId.toList),
    ("condition_id".toList, .str o.conditionId.toList),
    ("city_slug".toList, .str o.citySlug.toList),
    ("station_icao".toList, .str o.stationIcao.toList),
    ("event_date".toList, .str "2026-09-15".toList),
    ("contract".toList, .str "threshold_or_higher".toList),
    ("threshold_f".toList, optional o.thresholdF), ("bucket_low_f".toList, optional o.bucketLowF),
    ("bucket_high_f".toList, optional o.bucketHighF),
    ("yes_token_id".toList, .str o.yesTokenId.toList),
    ("no_token_id".toList, .str o.noTokenId.toList), ("observed_at".toList, stamp o.observedAt),
    ("clob_mid".toList, float o.clobMid), ("best_bid".toList, float o.bestBid),
    ("best_ask".toList, float o.bestAsk), ("half_spread".toList, float o.halfSpread),
    ("forecast_high_f".toList, float o.forecastHighF),
    ("forecast_model".toList, .str o.forecastModel.toList),
    ("forecast_source".toList, .str o.forecastSource.toList),
    ("forecast_issued_at".toList, stamp o.forecastIssuedAt), ("close_at".toList, stamp o.closeAt),
    ("lead_hours".toList, float o.leadHours), ("question".toList, .str o.question.toList)]

/-- The fields a resolved row has besides. -/
def resolution (r : ResolvedTapeRow) : List (List Char × Json.Scalar) :=
  [("official_high_f".toList, float r.officialHighF),
    ("station_id".toList, .str r.stationId.toList),
    ("resolution_source".toList, .str r.resolutionSource.toList),
    ("crosscheck_high_f".toList, optional r.crosscheckHighF),
    ("crosscheck_source".toList, .str r.crosscheckSource.toList),
    ("resolution_mismatch".toList, optional r.resolutionMismatch),
    ("resolved_at".toList, stamp r.resolvedAt)]

/-- An observation six hours before the market closes. -/
def observation : TapeObservation where
  schemaVersion := 1
  tapeKind := "live"
  venue := "polymarket"
  tradingMode := "paper"
  venueSubmitted := false
  eventId := "e1"
  marketId := "m1"
  conditionId := ""
  citySlug := "nyc"
  stationIcao := "KLGA"
  eventDate := 20711
  contract := .thresholdOrHigher
  thresholdF := some 70
  bucketLowF := none
  bucketHighF := none
  yesTokenId := "y1"
  noTokenId := "n1"
  observedAt := midnight - 21600
  clobMid := 1 / 2
  bestBid := 1 / 2
  bestAsk := 1 / 2
  halfSpread := 0
  forecastHighF := 70
  forecastModel := "best_match"
  forecastSource := "open_meteo"
  forecastIssuedAt := midnight - 21600
  closeAt := midnight
  leadHours := 6
  question := ""

/-- The market of the observation, resolved. -/
def resolvedRow : ResolvedTapeRow where
  toTapeObservation := observation
  officialHighF := 70
  stationId := "KLGA"
  resolutionSource := "iem"
  crosscheckHighF := none
  crosscheckSource := "missing"
  resolutionMismatch := none
  resolvedAt := midnight

theorem distinct_names (r : ResolvedTapeRow) :
    ((fields r.toTapeObservation ++ resolution r).map Prod.fst).Nodup ∧
      ∀ name ∈ (fields r.toTapeObservation ++ resolution r).map Prod.fst, IsName name := by
  simp only [fields, resolution, List.map_append, List.map_cons, List.map_nil]
  decide +kernel

theorem nodup_names (r : ResolvedTapeRow) :
    ((fields r.toTapeObservation ++ resolution r).map Prod.fst).Nodup :=
  (distinct_names r).1

theorem isName_of_mem (r : ResolvedTapeRow) :
    ∀ name ∈ (fields r.toTapeObservation ++ resolution r).map Prod.fst, IsName name :=
  (distinct_names r).2

theorem nodup_fields (o : TapeObservation) : ((fields o).map Prod.fst).Nodup := by
  have h := nodup_names { resolvedRow with toTapeObservation := o }
  rw [List.map_append] at h
  exact (List.nodup_append.mp h).1

theorem isName_of_mem_fields (o : TapeObservation) :
    ∀ name ∈ (fields o).map Prod.fst, IsName name := by
  intro name hmem
  refine isName_of_mem { resolvedRow with toTapeObservation := o } name ?_
  rw [List.map_append]
  exact List.mem_append_left _ hmem

theorem resolved_ne_nil (r : ResolvedTapeRow) : fields r.toTapeObservation ++ resolution r ≠ [] :=
  List.cons_ne_nil _ _

/-- An object with the sample's market and so many fields is the sample's. -/
def known {Row : Type} (count : ℕ) (row : Row) (object : List (List ℕ × Json)) : Option Row :=
  match Assoc.get (points "market_id".toList) object with
  | some (.str market) =>
    if market = points "m1".toList ∧ object.length = count then some row else none
  | _ => none

/-- What pydantic does with the sample observation. -/
def observations : RowModel TapeObservation where
  dump o := ⟨fields o, List.cons_ne_nil _ _, nodup_fields o, isName_of_mem_fields o⟩
  validate := known 29 observation

/-- What pydantic does with the sample row. -/
def resolved : RowModel ResolvedTapeRow where
  dump r := ⟨fields r.toTapeObservation ++ resolution r, resolved_ne_nil r, nodup_names r,
    isName_of_mem r⟩
  validate := known 36 resolvedRow

/-- The first characters of a row whose append was cut short. -/
def torn : List Char := ['{', '"', 'b', 'e', 's', 't', '_', 'a', 's', 'k', '"', ':', '0', '.', '5']

/-- Either sample is read back. -/
theorem rereads : Rereads observations observation ∧ Rereads resolved resolvedRow := by
  show observations.validate (rowLine observations observation).loaded = some observation ∧
    resolved.validate (rowLine resolved resolvedRow).loaded = some resolvedRow
  decide +kernel

/-- The torn tape is read: the torn line is skipped. -/
theorem reads_torn : readRows observations (.text torn) = .ok [] ∧
    readRows resolved (.text torn) = .ok [] := ⟨rfl, rfl⟩

theorem open_torn : ¬Blank (openLine torn) := by
  intro hblank
  have hbrace : isSpace '{' = true := hblank '{' (by decide)
  exact absurd hbrace (by decide)

/-- The sample observation is appended to any file. -/
theorem appended (file : TapeFile) :
    PolymarketWeatherTape.appendSync observations observation file
      = .ok (file.append ((rowLine observations observation).line ++ ['\n'])) := by
  have hnone : PolymarketWeatherTape.refuses observation = none := by
    have hahead : ¬midnight ≤ midnight - 21600 := by linarith
    rw [PolymarketWeatherTape.refuses, if_neg (by decide), if_neg (by decide),
      if_neg (show ¬observation.closeAt ≤ observation.observedAt from hahead),
      if_neg (show ¬observation.closeAt ≤ observation.forecastIssuedAt from hahead)]
  rw [PolymarketWeatherTape.appendSync, hnone]

/-- The sample row is appended to any file. -/
theorem appended_resolved (file : TapeFile) :
    PolymarketWeatherResolvedTape.appendSync resolved resolvedRow file
      = .ok (file.append ((rowLine resolved resolvedRow).line ++ ['\n'])) := by
  have hpaper : ¬(resolvedRow.venueSubmitted ∨ resolvedRow.tradingMode ≠ "paper") := by decide
  rw [PolymarketWeatherResolvedTape.appendSync, if_neg hpaper]

end Swallowed

/-- The append returns and the row is not on the tape; the same for a resolved market. -/
theorem torn_tail_swallows_row :
    (∃ file', PolymarketWeatherTape.appendSync Swallowed.observations Swallowed.observation
        (.text Swallowed.torn) = .ok file' ∧
      readRows Swallowed.observations (.text Swallowed.torn) = .ok [] ∧
      ¬KeepsRows Swallowed.observations (.text Swallowed.torn) file' Swallowed.observation) ∧
    ∃ file', PolymarketWeatherResolvedTape.appendSync Swallowed.resolved Swallowed.resolvedRow
        (.text Swallowed.torn) = .ok file' ∧
      readRows Swallowed.resolved (.text Swallowed.torn) = .ok [] ∧
      ¬KeepsRows Swallowed.resolved (.text Swallowed.torn) file' Swallowed.resolvedRow := by
  refine ⟨⟨_, Swallowed.appended _, Swallowed.reads_torn.1, fun h => ?_⟩, _,
    Swallowed.appended_resolved _, Swallowed.reads_torn.2, fun h => ?_⟩
  · exact Swallowed.open_torn ((keepsRows_text_iff Swallowed.rereads.1).mp h).2
  · exact Swallowed.open_torn ((keepsRows_text_iff Swallowed.rereads.2).mp h).2

theorem tapes_keep_rows_swallowed :
    (∃ file', PolymarketWeatherTape.appendSync Swallowed.observations Swallowed.observation
        .missing = .ok file' ∧
      KeepsRows Swallowed.observations .missing file' Swallowed.observation) ∧
    ∃ file', PolymarketWeatherResolvedTape.appendSync Swallowed.resolved Swallowed.resolvedRow
        .missing = .ok file' ∧
      KeepsRows Swallowed.resolved .missing file' Swallowed.resolvedRow := by
  have hlaw := tapes_keep_rows_iff Swallowed.observations Swallowed.resolved .missing
  refine ⟨⟨_, Swallowed.appended _, ?_⟩, _, Swallowed.appended_resolved _, ?_⟩
  · exact (hlaw.1 _ _ Swallowed.rereads.1 (Swallowed.appended _)).mpr trivial
  · exact (hlaw.2 _ _ Swallowed.rereads.2 (Swallowed.appended_resolved _)).1.mpr trivial

end TraderStack
