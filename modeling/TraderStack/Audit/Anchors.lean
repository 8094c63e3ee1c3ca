import TraderStack.Audit.Trail

/-!
# Anchors of the audit trail (audit_anchor.py)

The hash of the newest record is published outside the file. A file is then held
against the anchors: its chain must verify, and its record at the place of each
anchor must carry the anchor's hash. A rewritten file can be a chain of its own,
but not one that passes through an anchor, unless two bodies share a hash.
-/

namespace TraderStack

open Lib

/-- `AuditAnchor` (audit_anchor.py:56–65). -/
structure AuditAnchor where
  sequence : ℕ
  headHash : String
  policyVersion : String
  anchoredAt : Time
deriving DecidableEq

/-- `AnchorVerification` (audit_anchor.py:68–79). -/
structure AnchorVerification where
  valid : Bool
  chain : ChainVerification
  anchorsChecked : ℕ
  error : Option String
  divergedAtSequence : Option ℕ
deriving DecidableEq

/-- `head_anchor` (audit_anchor.py:95–118): nothing to commit to is no anchor, and
an unreadable last line raises. -/
def headAnchor (f : Option AuditFile) (now : Time) : Except String (Option AuditAnchor) :=
  match (auditEntries f).getLast? with
  | none => .ok none
  | some (.error e) => .error e
  | some (.ok r) =>
    .ok (some
      { sequence := r.body.sequence
        headHash := r.digest
        policyVersion := r.body.policyVersion
        anchoredAt := now })

/-- `_hashes_by_sequence` (audit_anchor.py:121–129): the first unreadable line
raises, and of two records of one place the later counts. -/
def hashesBySequence (f : Option AuditFile) : Except String (Dict ℕ String) := do
  let rs ← (auditEntries f).mapM id
  return Dict.ofList (rs.map fun r => (r.body.sequence, r.digest))

/-- The loop of `verify_with_anchors` (audit_anchor.py:166–194). -/
def checkAnchors (hashes : Dict ℕ String) (chain : ChainVerification) (checked : ℕ) :
    List AuditAnchor → AnchorVerification
  | [] => ⟨true, chain, checked, none, none⟩
  | anchor :: rest =>
    match hashes.get? anchor.sequence with
    | none =>
      ⟨false, chain, checked,
        some ("anchor at sequence " ++ toString anchor.sequence ++ " has no record in the "
          ++ "trail (the file is truncated or was restored from an "
          ++ "earlier backup; it holds " ++ toString chain.records ++ " record(s))"),
        some anchor.sequence⟩
    | some found =>
      if found ≠ anchor.headHash then
        ⟨false, chain, checked,
          some ("record " ++ toString anchor.sequence ++ " hashes to "
            ++ String.ofList (found.toList.take 12) ++ " but the published anchor commits to "
            ++ String.ofList (anchor.headHash.toList.take 12) ++ ": the trail was rewritten"),
          some anchor.sequence⟩
      else checkAnchors hashes chain checked rest

/-- `verify_with_anchors` (audit_anchor.py:132–196): the chain first, then the
anchors from the oldest on. -/
def verifyWithAnchors (hashBody : RiskAuditBody → String) (f : Option AuditFile)
    (anchors : List AuditAnchor) : Except String AnchorVerification :=
  let chain := verifyChain hashBody f
  if !chain.valid then .ok ⟨false, chain, 0, chain.error, chain.firstInvalidSequence⟩
  else if anchors.isEmpty then
    .ok ⟨false, chain, 0,
      some ("no anchors available: an intact chain proves only internal "
        ++ "consistency, not that the file was never rewritten from genesis"), none⟩
  else do
    let hashes ← hashesBySequence f
    return checkAnchors hashes chain anchors.length
      (anchors.mergeSort fun a b => a.sequence ≤ b.sequence)

variable {hashBody : RiskAuditBody → String}

/-- Anchors that pass are all found. -/
theorem found_of_checkAnchors {hashes : Dict ℕ String} {chain : ChainVerification} {checked : ℕ}
    {anchors : List AuditAnchor} (h : (checkAnchors hashes chain checked anchors).valid = true)
    {anchor : AuditAnchor} (hmem : anchor ∈ anchors) :
    hashes.get? anchor.sequence = some anchor.headHash := by
  induction anchors with
  | nil => cases hmem
  | cons first rest ih =>
    rw [checkAnchors] at h
    split at h
    · cases h
    split at h
    · cases h
    · rename_i found hfound hsame
      rcases List.mem_cons.mp hmem with rfl | hrest
      · rw [hfound, not_not.mp hsame]
      · exact ih h hrest

/-- A file of records is read as its records. -/
theorem mapM_ok (rs : List RiskAuditRecord) :
    (rs.map Except.ok).mapM id = (.ok rs : Except String (List RiskAuditRecord)) := by
  induction rs with
  | nil => rfl
  | cons r rs ih =>
    rw [List.map_cons, List.mapM_cons, ih]
    rfl

theorem auditRecords_of_entries_eq {f : Option AuditFile} {rs : List RiskAuditRecord}
    (h : auditEntries f = rs.map Except.ok) : auditRecords f = rs := by
  unfold auditRecords
  rw [h, List.filterMap_map]
  exact List.filterMap_some

/-- **What an accepted file is**: a chain whose record at the place of each anchor
carries the anchor's hash. -/
theorem accepted_of_verifyWithAnchors {f : Option AuditFile} {anchors : List AuditAnchor}
    {v : AnchorVerification} (h : verifyWithAnchors hashBody f anchors = .ok v)
    (hvalid : v.valid = true) :
    (auditFormat hashBody).Chained 0 genesisHash (auditRecords f) ∧
      ∀ anchor ∈ anchors, ∃ r, (auditRecords f)[anchor.sequence]? = some r ∧
        r.digest = anchor.headHash := by
  unfold verifyWithAnchors at h
  dsimp only at h
  split at h
  · cases h
    cases hvalid
  split at h
  · cases h
    cases hvalid
  rename_i hchain hanchors
  rw [Bool.not_eq_true', Bool.not_eq_false] at hchain
  cases f with
  | none => cases hchain
  | some file =>
    obtain ⟨rs, hrs, hchained⟩ := verifyLines_valid_iff.mp hchain
    have hentries : auditEntries (some file) = rs.map Except.ok := hrs
    rw [hashesBySequence, hentries, mapM_ok] at h
    cases h
    rw [auditRecords_of_entries_eq hentries]
    refine ⟨hchained, fun anchor hanchor => ?_⟩
    have hfound := found_of_checkAnchors hvalid (List.mem_mergeSort.mpr hanchor)
    obtain ⟨r, hr, hpair⟩ := List.mem_map.mp (Dict.mem_of_get?_ofList hfound)
    obtain ⟨hsequence, hdigest⟩ := Prod.mk.inj hpair
    -- its place in the chain is its sequence number
    obtain ⟨n, hn⟩ := List.getElem?_of_mem hr
    have hindex : r.body.sequence = 0 + n := ChainFormat.index_of_chained hchained hn
    refine ⟨r, ?_, hdigest⟩
    rw [← hsequence, hindex, Nat.zero_add]
    exact hn

namespace AuditState

/-- An anchor is the newest record of its moment. -/
theorem record_of_headAnchor {s : AuditState} {rs : List RiskAuditRecord} {now : Time}
    {anchor : AuditAnchor} (h : OnChain hashBody rs s)
    (hanchor : headAnchor s.file now = .ok (some anchor)) :
    ∃ r, rs[anchor.sequence]? = some r ∧ r.digest = anchor.headHash := by
  unfold headAnchor at hanchor
  rw [h.entries, List.getLast?_map] at hanchor
  cases hlast : rs.getLast? with
  | none =>
    rw [hlast] at hanchor
    cases hanchor
  | some r =>
    rw [hlast] at hanchor
    cases hanchor
    rw [List.getLast?_eq_getElem?] at hlast
    have hindex : r.body.sequence = 0 + (rs.length - 1) :=
      ChainFormat.index_of_chained h.chained hlast
    refine ⟨r, ?_, rfl⟩
    rw [hindex, Nat.zero_add]
    exact hlast

/-- **An anchor fixes the history below it.** Take a trail written from the start,
with restarts, and an anchor taken on the way. If no two of the bodies involved
share a hash, a file that is accepted against anchors among which this one is
holds the same records as the trail up to the anchored one: what was edited,
removed, inserted, reordered, regenerated or cut off there is rejected. -/
theorem anchored_history_agrees (hashBody : RiskAuditBody → String) (es later : List Event)
    (now : Time) {anchor : AuditAnchor} {anchors : List AuditAnchor} {f : Option AuditFile}
    {v : AnchorVerification}
    (hanchor : headAnchor (run (step hashBody) (opened none) es).file now = .ok (some anchor))
    (hmem : anchor ∈ anchors)
    (hfree : (auditFormat hashBody).CollisionFree
      (auditRecords (run (step hashBody) (opened none) (es ++ later)).file ++ auditRecords f))
    (hverify : verifyWithAnchors hashBody f anchors = .ok v) (hvalid : v.valid = true) :
    anchor.sequence < (auditRecords f).length ∧
      (auditRecords f).take (anchor.sequence + 1) =
        (auditRecords (run (step hashBody) (opened none) (es ++ later)).file).take
          (anchor.sequence + 1) := by
  obtain ⟨rs, hchain⟩ := onChain_run (onChain_opened hashBody) es
  obtain ⟨r, hr, hdigest⟩ := record_of_headAnchor hchain hanchor
  obtain ⟨new, hfinal⟩ := onChain_run hchain later
  rw [← run_append] at hfinal
  rw [auditRecords_of_onChain hfinal] at hfree ⊢
  obtain ⟨hchained, hfound⟩ := accepted_of_verifyWithAnchors hverify hvalid
  obtain ⟨r', hr', hdigest'⟩ := hfound anchor hmem
  obtain ⟨hlt, -⟩ := List.getElem?_eq_some_iff.mp hr'
  have hkept : ([] ++ rs ++ new)[anchor.sequence]? = some r := by
    rw [List.getElem?_append_left (List.getElem?_eq_some_iff.mp hr).1]
    exact hr
  have hsame : r.digest = r'.digest := hdigest.trans hdigest'.symm
  exact ⟨hlt,
    (ChainFormat.agree_of_digest hfinal.chained hchained hfree hkept hr' hsame).symm⟩

end AuditState

namespace Forked

/-- The anchor of the first record. -/
def anchor : AuditAnchor := ⟨0, first.digest, "1", 0⟩

/-- The second record of a trail. -/
def second : RiskAuditRecord := JsonlRiskAuditTrail.nextRecord placeHash ⟨0, first.digest, true⟩ decision

/-- A trail of two records, and a file that keeps the first. -/
def trail : Option AuditFile :=
  (run (AuditState.step placeHash) (AuditState.opened none)
    ([.record decision] ++ [.record decision])).file

def kept : Option AuditFile := some ⟨[some (.ok first)], none⟩

/-- The two records have different hashes. -/
theorem collisionFree :
    (auditFormat placeHash).CollisionFree (auditRecords trail ++ auditRecords kept) := by
  show (auditFormat placeHash).CollisionFree ([first, second] ++ [first])
  have hne : placeHash first.body ≠ placeHash second.body := by decide +kernel
  intro r hr r' hr' hsame
  simp only [List.cons_append, List.nil_append, List.mem_cons, List.not_mem_nil, or_false] at hr hr'
  rcases hr with rfl | rfl | rfl <;> rcases hr' with rfl | rfl | rfl
  all_goals first | rfl | exact absurd hsame hne | exact absurd hsame.symm hne

end Forked

namespace AuditState

/-- The first record alone is accepted against its anchor, as the beginning of
the two that were written. -/
theorem anchored_history_agrees_first :
    (auditRecords Forked.kept).take 1 = (auditRecords Forked.trail).take 1 := by
  have hanchor : headAnchor (run (step Forked.placeHash) (opened none)
      [.record Forked.decision]).file 0 = .ok (some Forked.anchor) := rfl
  have hverify : verifyWithAnchors Forked.placeHash Forked.kept [Forked.anchor] =
      .ok ⟨true, ⟨true, 1, none, none⟩, 1, none, none⟩ := by
    decide +kernel
  exact (anchored_history_agrees (f := Forked.kept) Forked.placeHash [.record Forked.decision]
    [.record Forked.decision] 0 hanchor List.mem_cons_self Forked.collisionFree hverify rfl).2

end AuditState

end TraderStack
