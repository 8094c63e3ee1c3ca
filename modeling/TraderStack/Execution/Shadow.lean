import TraderStack.Execution.Planner
import TraderStack.Lib.JsonLines
import TraderStack.Lib.Machine

/-!
# The shadow ledger (execution/shadow.py)

In shadow mode every intent is planned and the plan is appended to a file of JSON lines, at most
once for a decision. The ledger object reads the file once, when it is first asked. It marks
itself as resumed before it reads, so that after a line that does not parse it goes on with the
decisions of the lines before that one.

A write can fail after any number of characters. A file is its decoded text; pydantic's
`model_dump` and `model_validate_json` are parameters.

- `count_written`: how many records of a decision a write adds;
- `gains_iff`: **one call** gives a decision a second record exactly when the ledger has
  overlooked the first, the file does not end in an open line, and the whole record is written;
- `shadow_once_iff`: **over a run** no decision gains a second record exactly when no call does
  that.
-/

namespace TraderStack

open Lib Lib.Json Lib.Lines

/-! ## Records -/

/-- `SHADOW_RECORDED`, `SHADOW_PLAN_REJECTED`, `SHADOW_DUPLICATE`. -/
inductive ShadowStatus where
  | recorded
  | planRejected
  | duplicate
deriving DecidableEq, Repr

/-- The reason of a shadow record. -/
inductive ShadowReason where
  | alreadyRecorded (decisionId : String)
  | planRejected (reason : PlanRejection)
deriving DecidableEq

/-- `ShadowIntent` (shadow.py:29–46), with the bounds its validator checks. -/
structure ShadowIntent where
  recordedAt : Time
  decisionId : String
  asset : String
  side : Side
  executionPriceUsd : ℚ
  referencePriceUsd : ℚ
  status : ShadowStatus
  tradingMode : String
  clientOrderId : Option String
  correlationId : Option String
  quantity : Option ℚ
  notionalUsd : Option ℚ
  reason : Option ShadowReason
  executionPrice_pos : 0 < executionPriceUsd
  referencePrice_pos : 0 < referencePriceUsd
  quantity_pos : ∀ q ∈ quantity, 0 < q
  notional_pos : ∀ n ∈ notionalUsd, 0 < n

/-- What the recorder raises. -/
inductive ShadowError where
  /-- `ValidationError` of a line of the file. -/
  | unreadable
  /-- `ValidationError` of the record to be made: a price that is not positive. -/
  | invalid
  /-- `OSError` of the write. -/
  | write
deriving DecidableEq, Repr

/-- What pydantic does with shadow records: `model_dump(mode="json")`, and
`model_validate_json`, `none` where it raises. -/
structure ShadowModel where
  dump : ShadowIntent → Lib.Payload
  parse : List Char → Option ShadowIntent

/-! ## The ledger -/

/-- `ShadowLedger` (lines 49–56), without its path. -/
structure ShadowLedger where
  records : List ShadowIntent
  decisionIds : List String
  resumed : Bool

/-- `ShadowLedger(path)`. -/
def ShadowLedger.fresh : ShadowLedger := ⟨[], [], false⟩

/-- The file, `none` where there is none, and the ledger object. -/
structure ShadowState where
  file : Option (List Char)
  ledger : ShadowLedger

/-- The lines that iterating over the open file yields, with their newlines. -/
def fileLines (content : List Char) : List (List Char) :=
  let (ended, rest) := cut (· = '\n') (universalNewlines content)
  let ended := ended.map (· ++ ['\n'])
  if rest = [] then ended else ended ++ [rest]

namespace ShadowLedger

/-- A record is indexed. -/
def add (l : ShadowLedger) (intent : ShadowIntent) : ShadowLedger :=
  { l with records := l.records ++ [intent], decisionIds := l.decisionIds ++ [intent.decisionId] }

/-- The loop of `_resume` (lines 64–70), which stops at the first line that does not parse. -/
def resumeLines (model : ShadowModel) : List (List Char) → ShadowLedger →
    Option ShadowError × ShadowLedger
  | [], l => (none, l)
  | line :: lines, l =>
    if strip line = [] then resumeLines model lines l
    else
      match model.parse line with
      | none => (some .unreadable, l)
      | some intent => resumeLines model lines (l.add intent)

/-- `_resume` (lines 58–70). -/
def resume (model : ShadowModel) (file : Option (List Char)) (l : ShadowLedger) :
    Option ShadowError × ShadowLedger :=
  if l.resumed then (none, l)
  else
    match file with
    | none => (none, { l with resumed := true })
    | some content => resumeLines model (fileLines content) { l with resumed := true }

end ShadowLedger

/-! ## The recorder -/

/-- `ShadowRecorder`'s planner, with the function behind a correlation id. -/
structure ShadowRecorder where
  planner : ExecutionPlanner
  correlationIdFor : String → String

/-- The arguments of one `record` call. -/
structure ShadowCall where
  intent : PaperOrderIntent
  executionPriceUsd : ℚ
  referencePriceUsd : ℚ
  now : Time

theorem forall_mem_none {p : ℚ → Prop} : ∀ q ∈ (none : Option ℚ), p q :=
  fun _ h => by cases h

theorem pos_of_mem_some {x : ℚ} (h : 0 < x) : ∀ q ∈ some x, 0 < q := by
  intro q hq
  rwa [← Option.mem_some.mp hq]

namespace ShadowRecorder

/-- A record that carries no order (lines 104–114, 122–134). -/
def unplanned (call : ShadowCall) (status : ShadowStatus) (reason : ShadowReason) :
    Option ShadowIntent :=
  if h : 0 < call.executionPriceUsd ∧ 0 < call.referencePriceUsd then
    some
      { recordedAt := call.now
        decisionId := call.intent.decisionId
        asset := Text.upper call.intent.asset
        side := call.intent.side
        executionPriceUsd := call.executionPriceUsd
        referencePriceUsd := call.referencePriceUsd
        status := status
        tradingMode := "shadow"
        clientOrderId := none
        correlationId := none
        quantity := none
        notionalUsd := none
        reason := some reason
        executionPrice_pos := h.1
        referencePrice_pos := h.2
        quantity_pos := forall_mem_none
        notional_pos := forall_mem_none }
  else none

/-- The record of a plan (lines 136–148). -/
def planned (r : ShadowRecorder) (call : ShadowCall) (plan : ExecutionPlan) : ShadowIntent where
  recordedAt := call.now
  decisionId := plan.decisionId
  asset := plan.asset
  side := plan.side
  executionPriceUsd := plan.executionPriceUsd
  referencePriceUsd := plan.referencePriceUsd
  status := .recorded
  tradingMode := "shadow"
  clientOrderId := some plan.clientOrderId
  correlationId := some (r.correlationIdFor plan.decisionId)
  quantity := some plan.quantity
  notionalUsd := some plan.notionalUsd
  reason := none
  executionPrice_pos := plan.executionPrice_pos
  referencePrice_pos := plan.referencePrice_pos
  quantity_pos := pos_of_mem_some plan.quantity_pos
  notional_pos := pos_of_mem_some plan.notional_pos

/-- The record a call makes of a decision that has none, `none` where its validator raises. -/
def intended (r : ShadowRecorder) (call : ShadowCall) : Option ShadowIntent :=
  match r.planner.plan call.intent call.executionPriceUsd call.referencePriceUsd none with
  | .error reason => unplanned call .planRejected (.planRejected reason)
  | .ok plan => some (r.planned call plan)

/-- The line of a record. -/
def lineOf (model : ShadowModel) (intent : ShadowIntent) : List Char :=
  (model.dump intent).line ++ ['\n']

/-- `ShadowLedger.append` (lines 76–83). The write gets out all of the line, or raises after
`written` characters. -/
def append (model : ShadowModel) (intent : ShadowIntent) (written : Option ℕ) (s : ShadowState) :
    Except ShadowError ShadowIntent × ShadowState :=
  let line := lineOf model intent
  let content := s.file.getD []
  match written with
  | none => (.ok intent, { file := some (content ++ line), ledger := s.ledger.add intent })
  | some n => (.error .write, { s with file := some (content ++ line.take n) })

/-- `record` (lines 93–148). -/
def record (r : ShadowRecorder) (model : ShadowModel) (call : ShadowCall) (written : Option ℕ)
    (s : ShadowState) : Except ShadowError ShadowIntent × ShadowState :=
  match s.ledger.resume model s.file with
  | (some e, ledger) => (.error e, { s with ledger := ledger })
  | (none, ledger) =>
    let s := { s with ledger := ledger }
    if call.intent.decisionId ∈ ledger.decisionIds then
      match unplanned call .duplicate (.alreadyRecorded call.intent.decisionId) with
      | none => (.error .invalid, s)
      | some duplicate => (.ok duplicate, s)
    else
      match r.intended call with
      | none => (.error .invalid, s)
      | some intent => append model intent written s

end ShadowRecorder

/-! ## Runs -/

/-- A call, or a restart of the process. -/
inductive ShadowOp where
  | record (call : ShadowCall) (written : Option ℕ)
  | restart

namespace ShadowRecorder

variable (r : ShadowRecorder) (model : ShadowModel)

/-- One operation. -/
def step (s : ShadowState) : ShadowOp → ShadowState
  | .record call written => (r.record model call written s).2
  | .restart => { s with ledger := .fresh }

/-- The line is a record of the decision. -/
def recordsDecision (decisionId : String) (line : List Char) : Bool :=
  match model.parse line with
  | some intent => intent.decisionId = decisionId
  | none => false

/-- How many parsable records of a decision a file has. -/
def recordCount (decisionId : String) (file : Option (List Char)) : ℕ :=
  (fileLines (file.getD [])).countP (recordsDecision model decisionId)

/-- Some decision that has a record gains another one. -/
def GainsSecond (file file' : Option (List Char)) : Prop :=
  ∃ decisionId, 1 ≤ recordCount model decisionId file ∧
    recordCount model decisionId file < recordCount model decisionId file'

/-- What stands after the last newline of a file. -/
def openTail (file : Option (List Char)) : List Char :=
  (cut (· = '\n') (universalNewlines (file.getD []))).2

/-- The call writes a whole record of a decision whose record the resumed ledger has overlooked,
and not after an open line. -/
def Overlooks (s : ShadowState) (call : ShadowCall) (written : Option ℕ) : Prop :=
  s.ledger.resumed = true ∧ call.intent.decisionId ∉ s.ledger.decisionIds ∧
    1 ≤ recordCount model call.intent.decisionId s.file ∧
    (∀ c ∈ openTail s.file, isBlank c = true) ∧
    ∃ intent, r.intended call = some intent ∧
      ∀ n ∈ written, (model.dump intent).line.length ≤ n

/-- No operation of the run does that. -/
def OverlooksNothing (s : ShadowState) : ShadowOp → Prop
  | .record call written => ¬r.Overlooks model s call written
  | .restart => True

end ShadowRecorder

/-! ## What a write adds -/

/-- Only JSON objects are parsed as records. -/
def ShadowModel.ParsesObjects (model : ShadowModel) : Prop :=
  ∀ line intent, model.parse line = some intent → ∃ fields, loads line = .ok (.obj fields)

/-- The line of a record is parsed as the record, also with blanks around it. -/
def ShadowModel.Rereads (model : ShadowModel) (intent : ShadowIntent) : Prop :=
  ∀ before after, (∀ c ∈ before, isBlank c = true) → (∀ c ∈ after, isBlank c = true) →
    model.parse (before ++ (model.dump intent).line ++ after) = some intent

/-- The lines of a file that are ended. -/
def endedFileLines (content : List Char) : List (List Char) :=
  (cut (· = '\n') (universalNewlines content)).1.map (· ++ ['\n'])

theorem fileLines_eq (content : List Char) :
    fileLines content =
      if ShadowRecorder.openTail (some content) = [] then endedFileLines content
      else endedFileLines content ++ [ShadowRecorder.openTail (some content)] := rfl

/-- **What is written** of a record goes on with the open line. -/
theorem fileLines_written (content : List Char) (p : Lib.Payload) {written rest : List Char}
    (h : written ++ rest = p.line ++ ['\n']) (hne : written ≠ []) :
    fileLines (content ++ written)
      = endedFileLines content ++ [ShadowRecorder.openTail (some content) ++ written] := by
  have hplain := p.not_newline_of_mem_line
  have hnewlines := p.universalNewlines_written content rest h hne
  rcases List.eq_nil_or_concat rest with rfl | ⟨front, last, rfl⟩
  · -- the whole line, with its newline
    rw [List.append_nil] at h
    subst h
    rw [fileLines, hnewlines, ← List.append_assoc, cut_append_line hplain rfl]
    simp only [List.map_append, List.map_cons, List.map_nil, if_true, endedFileLines,
      ShadowRecorder.openTail, Option.getD_some, List.append_assoc]
  · have hpart : written ++ front = p.line := by
      rw [List.concat_eq_append, ← List.append_assoc] at h
      exact (List.append_inj' h rfl).1
    have hbreakless : ∀ c ∈ written, decide (c = '\n') = false := fun c hmem =>
      hplain c (hpart ▸ List.mem_append_left front hmem)
    have hopen : (cut (· = '\n') (universalNewlines content)).2 ++ written ≠ [] := by
      simp [hne]
    rw [fileLines, hnewlines, cut_append _ hbreakless]
    simp only [if_neg hopen]
    rfl

variable {model : ShadowModel} {content : List Char} {intent : ShadowIntent}

/-- A blank line is no record. -/
theorem parse_of_blank (hobjects : model.ParsesObjects) {line : List Char} (h : Blank line) :
    model.parse line = none := by
  cases hparse : model.parse line with
  | none => rfl
  | some intent =>
    obtain ⟨fields, hloads⟩ := hobjects line intent hparse
    exact absurd hloads (loads_blank h _)

/-- **What the open line becomes**: a record, if only blanks stand before it and all of its line
is written, and else no record at all. -/
theorem parse_written (hobjects : model.ParsesObjects) (hrereads : model.Rereads intent)
    {before written rest : List Char}
    (h : written ++ rest = (model.dump intent).line ++ ['\n']) (hne : written ≠ []) :
    model.parse (before ++ written) =
      if (∀ c ∈ before, isBlank c = true) ∧ (model.dump intent).line.length ≤ written.length then
        some intent
      else none := by
  have hnewline : ∀ c ∈ ['\n'], isBlank c = true := by decide
  split_ifs with hcase
  · obtain ⟨hblank, hlen⟩ := hcase
    -- what is written is the line and what follows it
    have hafter : ∃ after, written = (model.dump intent).line ++ after ∧
        ∀ c ∈ after, isBlank c = true := by
      refine ⟨written.drop (model.dump intent).line.length, ?_, ?_⟩
      · have htake := congrArg (List.take (model.dump intent).line.length) h
        rw [List.take_append_of_le_length hlen, List.take_left'] at htake
        · conv_lhs => rw [← List.take_append_drop (model.dump intent).line.length written]
          rw [htake]
        · rfl
      · intro c hmem
        have hdrop := congrArg (List.drop (model.dump intent).line.length) h
        rw [List.drop_append_of_le_length hlen, List.drop_left'] at hdrop
        · exact hnewline c (hdrop ▸ List.mem_append_left rest hmem)
        · rfl
    obtain ⟨after, hwritten, hafter⟩ := hafter
    rw [hwritten, ← List.append_assoc]
    exact hrereads before after hblank hafter
  · cases hparse : model.parse (before ++ written) with
    | none => rfl
    | some other =>
      obtain ⟨fields, hloads⟩ := hobjects _ _ hparse
      exfalso
      by_cases hblank : ∀ c ∈ before, isBlank c = true
      · have hlen : written.length < (model.dump intent).line.length :=
          not_le.mp fun hle => hcase ⟨hblank, hle⟩
        have htake := congrArg (List.take (model.dump intent).line.length) h
        rw [List.take_left' rfl, List.take_append, List.take_of_length_le hlen.le] at htake
        refine (model.dump intent).loads_part htake ?_ hblank fields hloads
        intro hnil
        rw [hnil, List.append_nil] at htake
        rw [htake] at hlen
        omega
      · obtain ⟨c, hc⟩ := not_forall.mp hblank
        obtain ⟨hmem, hc⟩ := Classical.not_imp.mp hc
        exact (model.dump intent).loads_merged h hne hnewline ⟨c, hmem, by simpa using hc⟩ fields
          hloads

namespace ShadowRecorder

variable {r : ShadowRecorder} {s : ShadowState} {call : ShadowCall} {written : Option ℕ}

/-- The records of a decision are those of the ended lines, and the open line if it is one. -/
theorem recordCount_eq (hobjects : model.ParsesObjects) (decisionId : String)
    (file : Option (List Char)) :
    recordCount model decisionId file
      = (endedFileLines (file.getD [])).countP (recordsDecision model decisionId)
        + if recordsDecision model decisionId (openTail file) then 1 else 0 := by
  have htail : openTail (some (file.getD [])) = openTail file := rfl
  rw [recordCount, fileLines_eq, htail]
  by_cases hempty : openTail file = []
  · have hnone : recordsDecision model decisionId [] = false := by
      rw [recordsDecision, parse_of_blank hobjects (by simp [Blank])]
    rw [if_pos hempty, hempty, hnone]
    rfl
  · rw [if_neg hempty, List.countP_append, List.countP_singleton]

/-- What a write adds: the one record, if a whole line was written and only blanks stood before
it; what the open line was is gone. -/
theorem recordCount_written (hobjects : model.ParsesObjects) (hrereads : model.Rereads intent)
    (decisionId : String) (file : Option (List Char)) {w rest : List Char}
    (h : w ++ rest = lineOf model intent) (hne : w ≠ []) :
    recordCount model decisionId (some (file.getD [] ++ w))
      = (endedFileLines (file.getD [])).countP (recordsDecision model decisionId)
        + if ((∀ c ∈ openTail file, isBlank c = true) ∧
            (model.dump intent).line.length ≤ w.length) ∧ intent.decisionId = decisionId then 1
          else 0 := by
  have hlast : recordsDecision model decisionId (openTail file ++ w)
      = decide (((∀ c ∈ openTail file, isBlank c = true) ∧
          (model.dump intent).line.length ≤ w.length) ∧ intent.decisionId = decisionId) := by
    rw [recordsDecision, parse_written hobjects hrereads h hne]
    by_cases hcase : (∀ c ∈ openTail file, isBlank c = true) ∧
        (model.dump intent).line.length ≤ w.length
    · have hiff : (((∀ c ∈ openTail file, isBlank c = true) ∧
          (model.dump intent).line.length ≤ w.length) ∧ intent.decisionId = decisionId)
            ↔ intent.decisionId = decisionId := ⟨fun h => h.2, fun h => ⟨hcase, h⟩⟩
      rw [if_pos hcase, decide_eq_decide.mpr hiff]
    · rw [if_neg hcase, decide_eq_false fun h => hcase h.1]
  have htail : openTail (some (file.getD [])) = openTail file := rfl
  rw [recordCount, Option.getD_some, fileLines_written _ _ h hne, List.countP_append,
    List.countP_singleton, htail, hlast]
  simp only [decide_eq_true_eq]

/-- **A write gives a decision a second record** exactly when the record is of a decision that
has one, the file does not end in an open line, and the whole line is written. -/
theorem gainsSecond_written_iff (hobjects : model.ParsesObjects) (hrereads : model.Rereads intent)
    (file : Option (List Char)) {w rest : List Char} (h : w ++ rest = lineOf model intent)
    (hne : w ≠ []) :
    GainsSecond model file (some (file.getD [] ++ w)) ↔
      1 ≤ recordCount model intent.decisionId file ∧
        (∀ c ∈ openTail file, isBlank c = true) ∧
          (model.dump intent).line.length ≤ w.length := by
  constructor
  · rintro ⟨decisionId, hone, hlt⟩
    rw [recordCount_written hobjects hrereads decisionId file h hne,
      recordCount_eq hobjects decisionId file] at hlt
    by_cases hcase : ((∀ c ∈ openTail file, isBlank c = true) ∧
        (model.dump intent).line.length ≤ w.length) ∧ intent.decisionId = decisionId
    · obtain ⟨⟨hblank, hlen⟩, rfl⟩ := hcase
      exact ⟨hone, hblank, hlen⟩
    · rw [if_neg hcase] at hlt
      omega
  · rintro ⟨hone, hblank, hlen⟩
    refine ⟨intent.decisionId, hone, ?_⟩
    have hnone : recordsDecision model intent.decisionId (openTail file) = false := by
      have hspace : Blank (openTail file) := by
        intro c hmem
        have := hblank c hmem
        simp only [isBlank, Bool.or_eq_true, decide_eq_true_eq] at this
        rcases this with ((h | h) | h) | h <;> rw [h] <;> rfl
      rw [recordsDecision, parse_of_blank hobjects hspace]
    have hafter := recordCount_written hobjects hrereads intent.decisionId file h hne
    have hbefore := recordCount_eq hobjects intent.decisionId file
    rw [if_pos ⟨⟨hblank, hlen⟩, rfl⟩] at hafter
    rw [hnone, if_neg Bool.false_ne_true] at hbefore
    omega

/-! ## One call -/

theorem not_gainsSecond_self (file : Option (List Char)) : ¬GainsSecond model file file := by
  rintro ⟨decisionId, -, hlt⟩
  omega

/-- A ledger that resumed without an error knows the decisions of the lines it read. -/
theorem mem_of_resumeLines (hobjects : model.ParsesObjects) {lines : List (List Char)}
    {l l' : ShadowLedger} (h : ShadowLedger.resumeLines model lines l = (none, l')) :
    (∀ d ∈ l.decisionIds, d ∈ l'.decisionIds) ∧
      ∀ line ∈ lines, ∀ intent, model.parse line = some intent →
        intent.decisionId ∈ l'.decisionIds := by
  induction lines generalizing l with
  | nil =>
    cases h
    exact ⟨fun d hd => hd, by simp⟩
  | cons line lines ih =>
    rw [ShadowLedger.resumeLines] at h
    by_cases hblank : strip line = []
    · rw [if_pos hblank] at h
      obtain ⟨hkept, hlines⟩ := ih h
      refine ⟨hkept, List.forall_mem_cons.mpr ⟨fun intent hparse => ?_, hlines⟩⟩
      rw [parse_of_blank hobjects (strip_eq_nil_iff.mp hblank)] at hparse
      cases hparse
    · rw [if_neg hblank] at h
      cases hparse : model.parse line with
      | none =>
        rw [hparse] at h
        cases h
      | some intent =>
        rw [hparse] at h
        obtain ⟨hkept, hlines⟩ := ih h
        refine ⟨fun d hd => hkept d (List.mem_append_left _ hd),
          List.forall_mem_cons.mpr ⟨fun other hother => ?_, hlines⟩⟩
        rw [hparse] at hother
        cases hother
        exact hkept _ (List.mem_append_right _ (List.mem_singleton.mpr rfl))

/-- A ledger that has just resumed overlooks no record. -/
theorem recordCount_of_resume (hobjects : model.ParsesObjects) {l : ShadowLedger}
    (hfresh : s.ledger.resumed = false) (h : s.ledger.resume model s.file = (none, l))
    {decisionId : String} (hd : decisionId ∉ l.decisionIds) :
    recordCount model decisionId s.file = 0 := by
  unfold ShadowLedger.resume at h
  rw [hfresh] at h
  simp only [Bool.false_eq_true, if_false] at h
  cases hfile : s.file with
  | none =>
    have hempty : fileLines [] = [] := rfl
    rw [recordCount, Option.getD_none, hempty]
    rfl
  | some content =>
    rw [hfile] at h
    obtain ⟨-, hlines⟩ := mem_of_resumeLines hobjects h
    refine List.countP_eq_zero.mpr fun line hmem => ?_
    unfold recordsDecision
    cases hparse : model.parse line with
    | none => simp
    | some intent =>
      have hknown := hlines line hmem intent hparse
      simp only [decide_eq_true_eq]
      rintro rfl
      exact hd hknown

/-- A record is of the call's decision. -/
theorem decisionId_of_intended (h : r.intended call = some intent) :
    intent.decisionId = call.intent.decisionId := by
  unfold intended at h
  cases hplan : r.planner.plan call.intent call.executionPriceUsd call.referencePriceUsd none with
  | error reason =>
    rw [hplan] at h
    simp only [unplanned] at h
    split_ifs at h
    cases h
    rfl
  | ok plan =>
    rw [hplan] at h
    cases h
    exact (ExecutionPlanner.planned_of_ok hplan).decisionId

/-- What of a line a write gets out. -/
def writtenOf (line : List Char) (written : Option ℕ) : List Char :=
  match written with
  | none => line
  | some n => line.take n

theorem writtenOf_append (line : List Char) (written : Option ℕ) :
    ∃ rest, writtenOf line written ++ rest = line := by
  cases written with
  | none => exact ⟨[], List.append_nil line⟩
  | some n => exact ⟨line.drop n, List.take_append_drop n line⟩

/-- The line of a record is all written when so many characters are. -/
theorem le_length_writtenOf_iff :
    (model.dump intent).line.length ≤ (writtenOf (lineOf model intent) written).length ↔
      ∀ n ∈ written, (model.dump intent).line.length ≤ n := by
  have hlen : (lineOf model intent).length = (model.dump intent).line.length + 1 := by
    rw [lineOf, List.length_append, List.length_singleton]
  cases written with
  | none =>
    simp only [writtenOf, hlen]
    simp
  | some n =>
    simp only [writtenOf, List.length_take, hlen, Option.mem_some_iff, forall_eq']
    omega

theorem append_file :
    (append model intent written s).2.file
      = some (s.file.getD [] ++ writtenOf (lineOf model intent) written) := by
  cases written <;> rfl

/-- A file ends in a newline after a whole line was written. -/
theorem openTail_line (content : List Char) :
    openTail (some (content ++ lineOf model intent)) = [] := by
  rw [openTail, Option.getD_some, lineOf, Lib.Payload.universalNewlines_line,
    cut_append_line (model.dump intent).not_newline_of_mem_line rfl]

/-- A write gives a decision a second record exactly when there is one, the file does not end in
an open line, and the whole line is written. -/
theorem gainsSecond_append_iff (s : ShadowState) (written : Option ℕ)
    (hobjects : model.ParsesObjects) (hrereads : model.Rereads intent) :
    GainsSecond model s.file (append model intent written s).2.file ↔
      1 ≤ recordCount model intent.decisionId s.file ∧
        (∀ c ∈ openTail s.file, isBlank c = true) ∧
          ∀ n ∈ written, (model.dump intent).line.length ≤ n := by
  obtain ⟨rest, hrest⟩ := writtenOf_append (lineOf model intent) written
  rw [append_file, ← le_length_writtenOf_iff]
  by_cases hne : writtenOf (lineOf model intent) written = []
  · -- nothing was written
    have hpos : 0 < (model.dump intent).line.length := by
      obtain ⟨middle, hline⟩ := (model.dump intent).exists_line
      rw [hline]
      exact Nat.succ_pos _
    rw [hne, List.append_nil]
    refine iff_of_false ?_ ?_
    · rintro ⟨decisionId, -, hlt⟩
      exact lt_irrefl _ hlt
    · rintro ⟨-, -, hlen⟩
      rw [List.length_nil] at hlen
      omega
  · exact gainsSecond_written_iff hobjects hrereads s.file hrest hne

/-- **One call** gives a decision a second record exactly when it writes a whole record of a
decision the resumed ledger has overlooked, and not after an open line. -/
theorem gains_iff (hobjects : model.ParsesObjects)
    (hrereads : ∀ intent, r.intended call = some intent → model.Rereads intent) :
    GainsSecond model s.file (r.record model call written s).2.file ↔
      r.Overlooks model s call written := by
  have hsame : ∀ file, file = s.file → ¬r.Overlooks model s call written →
      (GainsSecond model s.file file ↔ r.Overlooks model s call written) := by
    rintro file rfl hnot
    exact iff_of_false (not_gainsSecond_self _) hnot
  unfold record
  cases hresume : s.ledger.resume model s.file with
  | mk error ledger =>
    -- a ledger that has resumed stays as it is
    have hstays : s.ledger.resumed = true → error = none ∧ ledger = s.ledger := by
      intro h
      unfold ShadowLedger.resume at hresume
      rw [if_pos h] at hresume
      cases hresume
      exact ⟨rfl, rfl⟩
    cases error with
    | some e =>
      refine hsame _ rfl ?_
      rintro ⟨hresumed, -⟩
      exact absurd (hstays hresumed).1 (by simp)
    | none =>
      simp only
      by_cases hknown : call.intent.decisionId ∈ ledger.decisionIds
      · rw [if_pos hknown]
        refine hsame _ ?_ ?_
        · cases unplanned call .duplicate (.alreadyRecorded call.intent.decisionId) <;> rfl
        · rintro ⟨hresumed, hunknown, -⟩
          rw [(hstays hresumed).2] at hknown
          exact hunknown hknown
      · rw [if_neg hknown]
        cases hintended : r.intended call with
        | none =>
          refine hsame _ rfl ?_
          rintro ⟨-, -, -, -, intent, hsome, -⟩
          rw [hintended] at hsome
          cases hsome
        | some intent =>
          simp only
          have hdecision := decisionId_of_intended hintended
          have hwrite := gainsSecond_append_iff { s with ledger := ledger } written hobjects
            (hrereads intent hintended)
          rw [hdecision] at hwrite
          refine hwrite.trans ⟨?_, ?_⟩
          · rintro ⟨hone, hblank, hlen⟩
            have hresumed : s.ledger.resumed = true := by
              by_contra hfresh
              have hzero := recordCount_of_resume hobjects (by simpa using hfresh) hresume hknown
              simp only at hone
              omega
            rw [(hstays hresumed).2] at hknown
            exact ⟨hresumed, hknown, hone, hblank, intent, hintended, hlen⟩
          · rintro ⟨-, -, hone, hblank, other, hother, hlen⟩
            rw [hintended] at hother
            cases hother
            exact ⟨hone, hblank, hlen⟩

/-- **At most one record for a decision**: over a run from any file and a fresh ledger no
operation gives a decision a second record exactly when no call overlooks a record. -/
theorem shadow_once_iff (r : ShadowRecorder) (model : ShadowModel)
    (hobjects : model.ParsesObjects) (file : Option (List Char)) (ops : List ShadowOp)
    (hrereads : ∀ call written, .record call written ∈ ops →
      ∀ intent, r.intended call = some intent → model.Rereads intent) :
    Along (r.step model) (fun s op => ¬GainsSecond model s.file (r.step model s op).file)
        ⟨file, .fresh⟩ ops ↔
      Along (r.step model) (r.OverlooksNothing model) ⟨file, .fresh⟩ ops := by
  have hstep : ∀ s, ∀ op ∈ ops, ¬GainsSecond model s.file (r.step model s op).file ↔
      r.OverlooksNothing model s op := by
    intro s op hmem
    cases op with
    | record call written => exact not_congr (gains_iff hobjects (hrereads call written hmem))
    | restart => exact iff_of_true (not_gainsSecond_self _) trivial
  rw [along_iff_split, along_iff_split]
  constructor
  · intro h pre op post hops
    exact (hstep _ op (by rw [hops]; simp)).mp (h pre op post hops)
  · intro h pre op post hops
    exact (hstep _ op (by rw [hops]; simp)).mpr (h pre op post hops)

end ShadowRecorder

/-! ## A ledger that could not read its file -/

namespace Unreadable

/-- A planner with a small lot. -/
def planner : ExecutionPlanner where
  lotStep := 1 / 1000
  minNotionalUsd := 1
  maxSlippageBps := 50
  quoteCurrency := "USDT"
  clientOrderIdPrefix := "ts"
  digest := id
  lotStep_pos := by norm_num
  minNotional_pos := by norm_num
  maxSlippage_nonneg := by norm_num

def recorder : ShadowRecorder := ⟨planner, id⟩

/-- A buy of one unit at 100. -/
def call : ShadowCall where
  intent := ⟨"d1", "BTC", .buy, 100, "kraken_paper_trade", false, by norm_num⟩
  executionPriceUsd := 100
  referencePriceUsd := 100
  now := 1789531200

/-- `repr` of the numbers of the sample. -/
def float (x : ℚ) : Json.Scalar := if x = 1 then .number "1.0" else .number "100.0"

def text (x : Option String) : Json.Scalar := x.elim (.word .null) fun t => .str t.toList

/-- The fields of a record. -/
def fields (i : ShadowIntent) : List (List Char × Json.Scalar) :=
  [("recorded_at".toList, .str "2026-09-16T04:00:00Z".toList),
    ("decision_id".toList, .str i.decisionId.toList), ("asset".toList, .str i.asset.toList),
    ("side".toList, .str (if i.side = .buy then "buy" else "sell").toList),
    ("execution_price_usd".toList, float i.executionPriceUsd),
    ("reference_price_usd".toList, float i.referencePriceUsd),
    ("status".toList, .str "shadow_recorded".toList),
    ("trading_mode".toList, .str i.tradingMode.toList),
    ("client_order_id".toList, text i.clientOrderId),
    ("correlation_id".toList, text i.correlationId),
    ("quantity".toList, i.quantity.elim (.word .null) float),
    ("notional_usd".toList, i.notionalUsd.elim (.word .null) float),
    ("reason".toList, .word .null)]

theorem nodup_fields (i : ShadowIntent) : ((fields i).map Prod.fst).Nodup := by
  have hnames : (fields i).map Prod.fst
      = ["recorded_at", "decision_id", "asset", "side", "execution_price_usd",
        "reference_price_usd", "status", "trading_mode", "client_order_id", "correlation_id",
        "quantity", "notional_usd", "reason"].map String.toList := rfl
  rw [hnames]
  decide +kernel

theorem isName_of_mem (i : ShadowIntent) : ∀ name ∈ (fields i).map Prod.fst, IsName name := by
  have hnames : (fields i).map Prod.fst
      = ["recorded_at", "decision_id", "asset", "side", "execution_price_usd",
        "reference_price_usd", "status", "trading_mode", "client_order_id", "correlation_id",
        "quantity", "notional_usd", "reason"].map String.toList := rfl
  rw [hnames]
  decide +kernel

/-- An object with the decision of the sample. -/
def isSample (object : List (List ℕ × Json)) : Bool :=
  match Assoc.get (points "decision_id".toList) object with
  | some (.str decision) => decision = points "d1".toList
  | _ => false

/-- What pydantic does with the sample record. -/
def pydantic : ShadowModel where
  dump i := ⟨fields i, List.cons_ne_nil _ _, nodup_fields i, isName_of_mem i⟩
  parse line :=
    match loads line with
    | .ok (.obj object) => if isSample object then recorder.intended call else none
    | _ => none

theorem parsesObjects : pydantic.ParsesObjects := by
  intro line intent h
  simp only [pydantic] at h
  cases hloads : loads line with
  | error e =>
    rw [hloads] at h
    cases h
  | ok value =>
    rw [hloads] at h
    cases value with
    | obj object => exact ⟨object, rfl⟩
    | _ => cases h

/-- The object of a record of the sample's decision has that decision. -/
theorem isSample_loaded (i : ShadowIntent) (h : i.decisionId = "d1") :
    isSample (pydantic.dump i).loaded = true := by
  have hmem : ("decision_id".toList, Json.Scalar.str i.decisionId.toList) ∈ (pydantic.dump i).fields :=
    List.mem_cons_of_mem _ List.mem_cons_self
  have hget := (pydantic.dump i).get_loaded hmem
  rw [h] at hget
  unfold isSample
  rw [hget]
  exact decide_eq_true rfl

theorem rereads (intent : ShadowIntent) (h : recorder.intended call = some intent) :
    pydantic.Rereads intent := by
  intro before after hbefore hafter
  have hdecision := ShadowRecorder.decisionId_of_intended h
  show (match loads (before ++ (pydantic.dump intent).line ++ after) with
    | .ok (.obj object) => if isSample object then recorder.intended call else none
    | _ => none) = some intent
  rw [Lib.Payload.loads_line _ hbefore hafter]
  simp only [isSample_loaded intent hdecision, if_true]
  exact h

theorem isSome_intended : (recorder.intended call).isSome = true := by decide +kernel

/-- The record of the sample. -/
def sample : ShadowIntent := (recorder.intended call).get isSome_intended

theorem intended_sample : recorder.intended call = some sample :=
  (Option.some_get isSome_intended).symm

/-- A line that is no record, and the record of the sample. -/
def file : Option (List Char) := some (['x', '\n'] ++ ShadowRecorder.lineOf pydantic sample)

/-- The sample's decision has one record in the file. -/
theorem recordCount_file : ShadowRecorder.recordCount pydantic "d1" file = 1 := by
  have hdecision : sample.decisionId = "d1" :=
    ShadowRecorder.decisionId_of_intended intended_sample
  have hne : ShadowRecorder.lineOf pydantic sample ≠ [] := by simp [ShadowRecorder.lineOf]
  have hcount := ShadowRecorder.recordCount_written parsesObjects
    (rereads sample intended_sample) "d1"
    (some ['x', '\n']) (List.append_nil _) hne
  rw [if_pos ⟨⟨by decide, by simp [ShadowRecorder.lineOf]⟩, hdecision⟩] at hcount
  exact hcount

/-- The first call raises at the first line of the file, and leaves a ledger that has resumed. -/
theorem step_call :
    recorder.step pydantic ⟨file, .fresh⟩ (.record call none) = ⟨file, ⟨[], [], true⟩⟩ := by
  have hne : ShadowRecorder.lineOf pydantic sample ≠ [] := by simp [ShadowRecorder.lineOf]
  have hlines := fileLines_written ['x', '\n'] (pydantic.dump sample) (List.append_nil _) hne
  have hended : endedFileLines ['x', '\n'] = [['x', '\n']] := rfl
  have hparse : pydantic.parse ['x', '\n'] = none := rfl
  have hstrip : strip ['x', '\n'] ≠ [] := by decide
  have hresume : ShadowLedger.fresh.resume pydantic file
      = (some .unreadable, ⟨[], [], true⟩) := by
    rw [hended, List.singleton_append] at hlines
    unfold ShadowLedger.resume
    rw [if_neg (show ¬ShadowLedger.fresh.resumed = true by decide), file]
    simp only [ShadowRecorder.lineOf]
    rw [hlines, ShadowLedger.resumeLines, if_neg hstrip, hparse]
    rfl
  show (recorder.record pydantic call none ⟨file, .fresh⟩).2 = _
  unfold ShadowRecorder.record
  rw [hresume]

end Unreadable

/-- The first call of the ledger raises; the second call, on the same ledger, writes a second
record of a decision that has one in the file. -/
theorem unreadable_line_forgets_decision :
    ¬Along (Unreadable.recorder.step Unreadable.pydantic)
      (fun s op => ¬ShadowRecorder.GainsSecond Unreadable.pydantic s.file
        (Unreadable.recorder.step Unreadable.pydantic s op).file) ⟨Unreadable.file, .fresh⟩
      [.record Unreadable.call none, .record Unreadable.call none] := by
  intro h
  have hsecond := h.2.1
  rw [Unreadable.step_call] at hsecond
  have hrereads : ∀ other, Unreadable.recorder.intended Unreadable.call = some other →
      Unreadable.pydantic.Rereads other := Unreadable.rereads
  refine hsecond ((ShadowRecorder.gains_iff Unreadable.parsesObjects hrereads).mpr ?_)
  refine ⟨rfl, List.not_mem_nil, Unreadable.recordCount_file.ge, ?_, Unreadable.sample,
    Unreadable.intended_sample, by simp⟩
  rw [Unreadable.file, ShadowRecorder.openTail_line]
  simp

/-- A ledger that could read its file, before and after a restart. -/
theorem shadow_once_unreadable :
    Along (Unreadable.recorder.step Unreadable.pydantic)
      (fun s op => ¬ShadowRecorder.GainsSecond Unreadable.pydantic s.file
        (Unreadable.recorder.step Unreadable.pydantic s op).file) ⟨none, .fresh⟩
      [.record Unreadable.call none, .restart, .record Unreadable.call none] := by
  refine (ShadowRecorder.shadow_once_iff Unreadable.recorder Unreadable.pydantic
    Unreadable.parsesObjects none _ ?_).mpr ?_
  · intro call written hmem intent hintent
    have hcall : call = Unreadable.call := by
      simp only [List.mem_cons, List.not_mem_nil, or_false, ShadowOp.record.injEq, reduceCtorEq,
        false_or] at hmem
      rcases hmem with ⟨h, -⟩ | ⟨h, -⟩ <;> exact h
    rw [hcall] at hintent
    exact Unreadable.rereads intent hintent
  · refine ⟨?_, trivial, ?_, trivial⟩
    · rintro ⟨hresumed, -⟩
      cases hresumed
    · rintro ⟨hresumed, -⟩
      cases hresumed

end TraderStack
