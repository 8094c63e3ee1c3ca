import TraderStack.Agents.Review
import TraderStack.Lib.HashChain

/-!
# The risk audit trail (risk_audit.py, _fs.py)

Every risk decision is appended to a file as one line, whose record names its
place and the hash of the record before it. A trail object reads the end of the
file once, before its first record, and from then on remembers where it is.

A file is the list of its lines, and of what stands after the last newline if
anything does. A line is blank, a record, or something the reader refuses. What
is written is read back as it was; writes succeed. The hash of a body is a
parameter.
-/

namespace TraderStack

open Lib

/-! ## Records and files -/

/-- What one call of `record` writes down (risk_audit.py:133–160). The limits in
force are given as their JSON. -/
structure AuditedDecision where
  recordedAt : Time
  policyVersion : String
  riskLimits : String
  riskLimitsHash : String
  proposal : TradeProposal
  result : RiskResult
  metaReview : Option MetaAgentReview
  executionStatus : Option String
  executionReason : Option String

/-- `RiskAuditRecord.body` (risk_audit.py:52–79). -/
structure RiskAuditBody extends AuditedDecision where
  sequence : ℕ
  previousHash : String

/-- `RiskAuditRecord`: a body with its `record_hash`. -/
abbrev RiskAuditRecord := Sealed RiskAuditBody String

/-- `GENESIS_HASH` (risk_audit.py:49). -/
def genesisHash : String := String.ofList (List.replicate 64 '0')

/-- A line that is not blank: a record, or what the reader has against it. -/
abbrev AuditEntry := Except String RiskAuditRecord

/-- The audit file. A blank line is `none`; `tail` is what follows the last
newline. -/
structure AuditFile where
  lines : List (Option AuditEntry)
  tail : Option (Option AuditEntry)

namespace AuditFile

/-- What iterating over the open file yields. -/
def allLines (f : AuditFile) : List (Option AuditEntry) := f.lines ++ f.tail.toList

/-- A record written behind an unfinished line becomes part of it. White space in
front of a record is skipped, anything else spoils it. -/
def glue (r : RiskAuditRecord) : Option (Option AuditEntry) → AuditEntry
  | none => .ok r
  | some none => .ok r
  | some (some (.ok _)) => .error "trailing characters"
  | some (some (.error e)) => .error e

/-- `append_jsonl` (_fs.py:69–86). -/
def append (f : AuditFile) (r : RiskAuditRecord) : AuditFile where
  lines := f.lines ++ [some (glue r f.tail)]
  tail := none

end AuditFile

/-- The lines of a file that are not blank; none when it is absent. -/
def auditEntries : Option AuditFile → List AuditEntry
  | none => []
  | some f => f.allLines.filterMap id

/-- The records on file. -/
def auditRecords (f : Option AuditFile) : List RiskAuditRecord :=
  (auditEntries f).filterMap Except.toOption

/-! ## Writing -/

/-- `JsonlRiskAuditTrail` (risk_audit.py:100–107). -/
structure JsonlRiskAuditTrail where
  sequence : ℤ
  lastHash : String
  resumed : Bool

namespace JsonlRiskAuditTrail

/-- `JsonlRiskAuditTrail(path)`. -/
def fresh : JsonlRiskAuditTrail := ⟨-1, genesisHash, false⟩

/-- `_resume` (risk_audit.py:112–129). The flag is set before the last line is
parsed. -/
def resume (t : JsonlRiskAuditTrail) (f : Option AuditFile) :
    Except String Unit × JsonlRiskAuditTrail :=
  if t.resumed then (.ok (), t)
  else
    let t := { t with resumed := true }
    match (auditEntries f).getLast? with
    | none => (.ok (), t)
    | some (.error e) => (.error e, t)
    | some (.ok r) => (.ok (), { t with sequence := r.body.sequence, lastHash := r.digest })

variable (hashBody : RiskAuditBody → String)

/-- The record that comes next: the decision, its place and its predecessor,
hashed (risk_audit.py:143–166). -/
def nextRecord (t : JsonlRiskAuditTrail) (d : AuditedDecision) : RiskAuditRecord :=
  let body : RiskAuditBody :=
    { toAuditedDecision := d
      sequence := (t.sequence + 1).toNat
      previousHash := t.lastHash }
  ⟨body, hashBody body⟩

/-- `record` (risk_audit.py:133–171): what it returns, the object afterwards and
the file. -/
def record (t : JsonlRiskAuditTrail) (f : Option AuditFile) (d : AuditedDecision) :
    Except String RiskAuditRecord × JsonlRiskAuditTrail × Option AuditFile :=
  match t.resume f with
  | (.error e, t) => (.error e, t, f)
  | (.ok _, t) =>
    let r := t.nextRecord hashBody d
    (.ok r, { t with sequence := r.body.sequence, lastHash := r.digest },
      some ((f.getD ⟨[], none⟩).append r))

end JsonlRiskAuditTrail

/-! ## Verifying -/

/-- `ChainVerification` (risk_audit.py:87–97). -/
structure ChainVerification where
  valid : Bool
  records : ℕ
  error : Option String
  firstInvalidSequence : Option ℕ
deriving DecidableEq

/-- The loop of `verify_chain` (risk_audit.py:203–245): from the given line, after
so many records, the last of them with the given hash. -/
def verifyLines (hashBody : RiskAuditBody → String) (number : ℕ) (previousHash : String)
    (count : ℕ) : List (Option AuditEntry) → ChainVerification
  | [] => ⟨true, count, none, none⟩
  | none :: rest => verifyLines hashBody (number + 1) previousHash count rest
  | some (.error e) :: _ =>
    ⟨false, count, some ("line " ++ toString number ++ " is not a valid audit record: " ++ e),
      some count⟩
  | some (.ok r) :: rest =>
    if r.body.sequence ≠ count then
      ⟨false, count,
        some ("line " ++ toString number ++ " has sequence " ++ toString r.body.sequence ++
          ", expected " ++ toString count ++ " (a record was removed or reordered)"),
        some r.body.sequence⟩
    else if r.body.previousHash ≠ previousHash then
      ⟨false, count, some ("line " ++ toString number ++ " does not chain to its predecessor"),
        some r.body.sequence⟩
    else if hashBody r.body ≠ r.digest then
      ⟨false, count,
        some ("line " ++ toString number ++ " content does not match its record hash (edited)"),
        some r.body.sequence⟩
    else verifyLines hashBody (number + 1) r.digest (count + 1) rest

/-- `verify_chain` (risk_audit.py:196–247). -/
def verifyChain (hashBody : RiskAuditBody → String) : Option AuditFile → ChainVerification
  | none => ⟨false, 0, some "audit trail does not exist", none⟩
  | some f => verifyLines hashBody 1 genesisHash 0 f.allLines

/-- How the records are chained. -/
def auditFormat (hashBody : RiskAuditBody → String) : ChainFormat RiskAuditBody String where
  index := RiskAuditBody.sequence
  prev := RiskAuditBody.previousHash
  hash := hashBody

variable {hashBody : RiskAuditBody → String}

/-- The loop accepts exactly the lines whose entries are records that continue
the chain. -/
theorem verifyLines_valid_iff {number count : ℕ} {previousHash : String}
    {lines : List (Option AuditEntry)} :
    (verifyLines hashBody number previousHash count lines).valid = true ↔
      ∃ rs : List RiskAuditRecord, lines.filterMap id = rs.map Except.ok ∧
        (auditFormat hashBody).Chained count previousHash rs := by
  induction lines generalizing number count previousHash with
  | nil => exact ⟨fun _ => ⟨[], rfl, trivial⟩, fun _ => rfl⟩
  | cons line lines ih =>
    cases line with
    | none => exact ih
    | some entry =>
      cases entry with
      | error e =>
        constructor
        · intro h
          cases h
        · rintro ⟨rs, hrs, -⟩
          cases rs <;> cases hrs
      | ok r =>
        constructor
        · intro h
          rw [verifyLines] at h
          split at h
          · cases h
          split at h
          · cases h
          split at h
          · cases h
          rename_i hsequence hprevious hhash
          obtain ⟨rs, hrs, hchained⟩ := ih.mp h
          refine ⟨r :: rs, congrArg (Except.ok r :: ·) hrs, ?_, ?_, ?_, hchained⟩
          · exact not_not.mp hsequence
          · exact not_not.mp hprevious
          · exact not_not.mp hhash
        · rintro ⟨rs, hrs, hchained⟩
          cases rs with
          | nil => cases hrs
          | cons r' rs =>
            obtain ⟨hhead, hrest⟩ := List.cons.inj hrs
            cases Except.ok.inj hhead
            obtain ⟨hsequence, hprevious, hhash, hchained⟩ := hchained
            change r.body.sequence = count at hsequence
            change r.body.previousHash = previousHash at hprevious
            change hashBody r.body = r.digest at hhash
            rw [verifyLines, if_neg (not_not.mpr hsequence), if_neg (not_not.mpr hprevious),
              if_neg (not_not.mpr hhash)]
            exact ih.mpr ⟨rs, hrest, hchained⟩

/-! ## Where the next record belongs -/

@[simp] theorem auditEntries_none : auditEntries none = [] := rfl

/-- The place and the predecessor of the next record. -/
def nextSequence (f : Option AuditFile) : ℕ :=
  ((auditRecords f).getLast?.map fun r => r.body.sequence + 1).getD 0

def headHash (f : Option AuditFile) : String := ChainFormat.head genesisHash (auditRecords f)

/-- One record was appended, and it continues the last record on file. -/
structure Appended (f f' : Option AuditFile) (r : RiskAuditRecord) : Prop where
  entries : auditEntries f' = auditEntries f ++ [.ok r]
  sequence : r.body.sequence = nextSequence f
  previousHash : r.body.previousHash = headHash f

/-- Nothing but white space follows the last newline. -/
def Finished (f : Option AuditFile) : Prop :=
  ∀ file, f = some file → file.tail = none ∨ file.tail = some none

/-- The object knows where the chain ends. -/
structure Continues (t : JsonlRiskAuditTrail) (f : Option AuditFile) : Prop where
  sequence : t.sequence + 1 = nextSequence f
  lastHash : t.lastHash = headHash f

/-- A finished file takes a record as a line of its own. -/
theorem auditEntries_append {f : Option AuditFile} (h : Finished f) (r : RiskAuditRecord) :
    auditEntries (some ((f.getD ⟨[], none⟩).append r)) = auditEntries f ++ [.ok r] := by
  cases f with
  | none => rfl
  | some file =>
    rcases h file rfl with htail | htail
    · simp [auditEntries, AuditFile.allLines, AuditFile.append, AuditFile.glue, htail]
    · simp [auditEntries, AuditFile.allLines, AuditFile.append, AuditFile.glue, htail]

theorem auditRecords_of_entries {f f' : Option AuditFile} {r : RiskAuditRecord}
    (h : auditEntries f' = auditEntries f ++ [.ok r]) :
    auditRecords f' = auditRecords f ++ [r] := by
  unfold auditRecords
  rw [h, List.filterMap_append]
  rfl

/-- The end of a chain that just grew. -/
theorem end_of_appended {f f' : Option AuditFile} {r : RiskAuditRecord}
    (h : auditEntries f' = auditEntries f ++ [.ok r]) :
    nextSequence f' = r.body.sequence + 1 ∧ headHash f' = r.digest := by
  unfold nextSequence headHash ChainFormat.head
  rw [auditRecords_of_entries h, List.getLast?_append, List.getLast?_singleton]
  exact ⟨rfl, rfl⟩

/-- The last line, when it is a record, is the last record. -/
theorem end_of_last_ok {f : Option AuditFile} {r : RiskAuditRecord}
    (h : (auditEntries f).getLast? = some (.ok r)) :
    nextSequence f = r.body.sequence + 1 ∧ headHash f = r.digest := by
  obtain ⟨before, hbefore⟩ := List.getLast?_eq_some_iff.mp h
  have hrecords : auditRecords f = before.filterMap Except.toOption ++ [r] := by
    unfold auditRecords
    rw [hbefore, List.filterMap_append]
    rfl
  unfold nextSequence headHash ChainFormat.head
  rw [hrecords, List.getLast?_append, List.getLast?_singleton]
  exact ⟨rfl, rfl⟩

/-- Without a record on file the chain starts. -/
theorem continues_fresh {f : Option AuditFile} (h : auditRecords f = []) (resumed : Bool) :
    Continues { JsonlRiskAuditTrail.fresh with resumed := resumed } f where
  sequence := by
    unfold nextSequence
    rw [h]
    rfl
  lastHash := by
    unfold headHash
    rw [h]
    rfl

/-! ## Calls of one object -/

/-- A trail object on its file. -/
structure AuditState where
  file : Option AuditFile
  trail : JsonlRiskAuditTrail

namespace AuditState

/-- A new object on a file. -/
def opened (f : Option AuditFile) : AuditState := ⟨f, .fresh⟩

/-- One call of `record`. -/
def call (hashBody : RiskAuditBody → String) (s : AuditState) (d : AuditedDecision) : AuditState :=
  let out := s.trail.record hashBody s.file d
  ⟨out.2.2, out.2.1⟩

/-- The call raised and left the file alone, or appended one record that
continues the last one on file. -/
def CallOk (hashBody : RiskAuditBody → String) (s : AuditState) (d : AuditedDecision) : Prop :=
  match (s.trail.record hashBody s.file d).1 with
  | .error _ => (s.call hashBody d).file = s.file
  | .ok r => Appended s.file (s.call hashBody d).file r

/-- The last line is a record, unless none is. -/
def LastReadable (f : Option AuditFile) : Prop :=
  ∀ e, (auditEntries f).getLast? = some (.error e) → auditRecords f = []

/-- A file a new object can go on from: it ends with a newline, and its last line
is a record unless there is no record on it. -/
structure Resumable (f : Option AuditFile) : Prop where
  finished : Finished f
  lastReadable : LastReadable f

/-- The object either knows the end of the chain or has not looked yet. -/
structure Ready (s : AuditState) : Prop where
  finished : Finished s.file
  resumed : s.trail.resumed = true → Continues s.trail s.file
  unread : s.trail.resumed = false → s.trail = .fresh ∧ LastReadable s.file

theorem finished_append (f : AuditFile) (r : RiskAuditRecord) : Finished (some (f.append r)) := by
  rintro file ⟨⟩
  exact .inl rfl

variable {s : AuditState} {d : AuditedDecision}

/-- A call of an object that knows where it is. -/
theorem call_of_continues {t : JsonlRiskAuditTrail} (hfinished : Finished s.file)
    (hresume : s.trail.resume s.file = (.ok (), t)) (ht : t.resumed = true)
    (hcontinues : Continues t s.file) : s.CallOk hashBody d ∧ Ready (s.call hashBody d) := by
  have hsequence : (t.sequence + 1).toNat = nextSequence s.file := by
    rw [hcontinues.sequence, Int.toNat_natCast]
  have hrecord : s.trail.record hashBody s.file d =
      (.ok (t.nextRecord hashBody d),
        { t with
          sequence := (t.nextRecord hashBody d).body.sequence
          lastHash := (t.nextRecord hashBody d).digest },
        some ((s.file.getD ⟨[], none⟩).append (t.nextRecord hashBody d))) := by
    rw [JsonlRiskAuditTrail.record, hresume]
  have hentries := auditEntries_append hfinished (t.nextRecord hashBody d)
  constructor
  · unfold CallOk call
    rw [hrecord]
    exact ⟨hentries, hsequence, hcontinues.lastHash⟩
  · unfold call
    rw [hrecord]
    refine ⟨finished_append _ _, fun _ => ?_, fun h => absurd (ht.symm.trans h) (by simp)⟩
    obtain ⟨hnext, hhead⟩ := end_of_appended hentries
    constructor
    · rw [hnext]
      push_cast
      rfl
    · rw [hhead]

/-- **A ready object stays ready**, and each of its calls is in order. -/
theorem ready_call (hashBody : RiskAuditBody → String) (h : Ready s) (d : AuditedDecision) :
    s.CallOk hashBody d ∧ Ready (s.call hashBody d) := by
  cases hresumed : s.trail.resumed with
  | true =>
    refine call_of_continues h.finished ?_ hresumed (h.resumed hresumed)
    rw [JsonlRiskAuditTrail.resume, if_pos hresumed]
  | false =>
    obtain ⟨hfresh, hlast⟩ := h.unread hresumed
    cases hentry : (auditEntries s.file).getLast? with
    | none =>
      -- nothing on file: the chain starts
      have hrecords : auditRecords s.file = [] := by
        unfold auditRecords
        rw [List.getLast?_eq_none_iff.mp hentry]
        rfl
      refine call_of_continues h.finished ?_ rfl (continues_fresh hrecords true)
      rw [JsonlRiskAuditTrail.resume, hentry, hfresh]
      rfl
    | some entry =>
      cases entry with
      | ok r =>
        obtain ⟨hnext, hhead⟩ := end_of_last_ok hentry
        refine call_of_continues (t := ⟨r.body.sequence, r.digest, true⟩) h.finished ?_ rfl ⟨?_, ?_⟩
        · rw [JsonlRiskAuditTrail.resume, hentry, hfresh]
          rfl
        · rw [hnext]
          push_cast
          rfl
        · rw [hhead]
      | error e =>
        -- it raises once, and there is no record to go on from
        have hrecord : s.trail.record hashBody s.file d =
            (.error e, { JsonlRiskAuditTrail.fresh with resumed := true }, s.file) := by
          rw [JsonlRiskAuditTrail.record, JsonlRiskAuditTrail.resume, hentry, hfresh]
          rfl
        constructor
        · unfold CallOk call
          rw [hrecord]
        · unfold call
          rw [hrecord]
          refine ⟨h.finished, fun _ => continues_fresh (hlast e hentry) true, ?_⟩
          intro hunread
          cases hunread

theorem ready_opened {f : Option AuditFile} (h : Resumable f) : Ready (opened f) where
  finished := h.finished
  resumed := by
    intro hresumed
    cases hresumed
  unread := fun _ => ⟨rfl, h.lastReadable⟩

/-- A decision is recorded, or a new process opens the file. -/
inductive Event where
  | record (d : AuditedDecision)
  | restart

def step (hashBody : RiskAuditBody → String) (s : AuditState) : Event → AuditState
  | .record d => s.call hashBody d
  | .restart => opened s.file

/-- The file is a chain of records, and its object is ready. -/
structure OnChain (hashBody : RiskAuditBody → String) (rs : List RiskAuditRecord)
    (s : AuditState) : Prop where
  ready : Ready s
  entries : auditEntries s.file = rs.map Except.ok
  chained : (auditFormat hashBody).Chained 0 genesisHash rs

theorem auditRecords_of_onChain {rs : List RiskAuditRecord} (h : OnChain hashBody rs s) :
    auditRecords s.file = rs := by
  unfold auditRecords
  rw [h.entries, List.filterMap_map]
  exact List.filterMap_some

theorem onChain_opened (hashBody : RiskAuditBody → String) : OnChain hashBody [] (opened none) where
  ready := ready_opened { finished := (by rintro _ ⟨⟩), lastReadable := (by rintro _ ⟨⟩) }
  entries := rfl
  chained := trivial

/-- The place of the next record of a chain is its length. -/
theorem nextSequence_of_onChain {rs : List RiskAuditRecord} (h : OnChain hashBody rs s) :
    nextSequence s.file = rs.length := by
  unfold nextSequence
  rw [auditRecords_of_onChain h]
  cases hlast : rs.getLast? with
  | none =>
    rw [List.getLast?_eq_none_iff.mp hlast]
    rfl
  | some r =>
    have hindex : r.body.sequence = 0 + (rs.length - 1) :=
      ChainFormat.index_of_chained h.chained (by rw [← List.getLast?_eq_getElem?, hlast])
    have hpos : rs ≠ [] := by
      rintro rfl
      cases hlast
    have := List.length_pos_iff.mpr hpos
    show r.body.sequence + 1 = rs.length
    omega

/-- What `record` returns is sealed by its hash. -/
theorem hash_of_record {t : JsonlRiskAuditTrail} {f : Option AuditFile} {r : RiskAuditRecord}
    (h : (t.record hashBody f d).1 = .ok r) : hashBody r.body = r.digest := by
  unfold JsonlRiskAuditTrail.record at h
  split at h
  · cases h
  · cases h
    rfl

/-- Every step keeps the file a chain, and only extends it. -/
theorem onChain_step {rs : List RiskAuditRecord} (h : OnChain hashBody rs s) (e : Event) :
    ∃ new, OnChain hashBody (rs ++ new) (s.step hashBody e) := by
  cases e with
  | restart =>
    refine ⟨[], ready_opened ⟨h.ready.finished, ?_⟩, ?_, ?_⟩
    · intro e he
      rw [h.entries, List.getLast?_map, Option.map_eq_some_iff] at he
      obtain ⟨r, -, hr⟩ := he
      cases hr
    · rw [List.append_nil]
      exact h.entries
    · rw [List.append_nil]
      exact h.chained
  | record d =>
    obtain ⟨hok, hready⟩ := ready_call hashBody h.ready d
    unfold CallOk at hok
    split at hok
    · refine ⟨[], hready, ?_, ?_⟩
      · rw [List.append_nil]
        exact (congrArg auditEntries hok).trans h.entries
      · rw [List.append_nil]
        exact h.chained
    · rename_i r hr
      refine ⟨[r], hready, ?_, ?_⟩
      · rw [List.map_append, ← h.entries]
        exact hok.entries
      · rw [ChainFormat.chained_append]
        refine ⟨h.chained, ?_, ?_, hash_of_record hr, trivial⟩
        · rw [Nat.zero_add, ← nextSequence_of_onChain h]
          exact hok.sequence
        · have hhead := hok.previousHash
          rw [headHash, auditRecords_of_onChain h] at hhead
          exact hhead

/-- A run only extends the chain. -/
theorem onChain_run {rs : List RiskAuditRecord} (h : OnChain hashBody rs s) (es : List Event) :
    ∃ new, OnChain hashBody (rs ++ new) (run (step hashBody) s es) := by
  refine run_invariant (I := fun s => ∃ new, OnChain hashBody (rs ++ new) s) ?_ s es ⟨[], ?_⟩
  · rintro s e ⟨new, h⟩
    obtain ⟨more, hmore⟩ := onChain_step h e
    exact ⟨new ++ more, List.append_assoc rs new more ▸ hmore⟩
  · rwa [List.append_nil]

end AuditState

namespace Forked

/-- An approved entry. -/
def decision : AuditedDecision where
  recordedAt := 0
  policyVersion := "1"
  riskLimits := "{}"
  riskLimitsHash := "limits"
  proposal :=
    { decisionId := "d1"
      strategyId := "vertical-slice-v1"
      asset := "BTC"
      side := .buy
      confidence := 1
      requestedNotionalUsd := 100
      confidence_bounds := certain_bounds
      requested_pos := Approved.hundred_pos }
  result := ⟨"d1", .allow, 100, []⟩
  metaReview := none
  executionStatus := none
  executionReason := none

/-- A hash that tells records by their place and predecessor. -/
def placeHash (body : RiskAuditBody) : String := toString body.sequence ++ ":" ++ body.previousHash

/-- The first record of a trail. -/
def first : RiskAuditRecord := JsonlRiskAuditTrail.fresh.nextRecord placeHash decision

/-- A record, and a line that was cut short. -/
def torn : AuditFile := ⟨[some (.ok first), some (.error "EOF while parsing")], none⟩

end Forked

namespace AuditState

end AuditState

end TraderStack
