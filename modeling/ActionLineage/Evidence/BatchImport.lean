import ActionLineage.Evidence.CausalClosure

/-!
# Batch import — `import_evidence_batch`

The import without the lock around it: every event goes through `journal.append`, which verifies the
journal again, and the entries of the journal are those of the events the caller hands in. A failed
record never stops the loop.

When every record is imported, the journal has gained their events in the sorted order of the
records, each the parent of the next (`importBatchRecords_imported`).
-/

namespace ActionLineage

open Py

/-- The variables of the loop, and the journal it appends to. -/
structure BatchState where
  normalizer : EvidenceNormalizer
  content : Content
  batchSeen : IdempotencyEntries
  outcomes : List IngestOutcome

namespace BatchState

def report (s : BatchState) (outcome : IngestOutcome) : BatchState :=
  { s with outcomes := s.outcomes ++ [outcome] }

/-- The loop variables after the event was appended. -/
def commit (s : BatchState) (record : EvidenceRecord) (recordFingerprint : Str)
    (persisted : EventEnvelope) : BatchState :=
  { s with
    batchSeen := (record.idempotencyKey.val, ⟨persisted.eventId, some recordFingerprint⟩)
      :: s.batchSeen
    outcomes := s.outcomes ++ [importedOutcome record persisted] }

end BatchState

/-- How a turn of the loop ends. -/
inductive BatchStep
  | next (s : BatchState)
  | raised (exc : PyError) (s : BatchState)

/-- What the import returns or raises, and the journal. -/
def BatchStep.result : BatchStep → Except PyError (List IngestOutcome) × Content
  | next s => (.ok s.outcomes, s.content)
  | raised exc s => (.error exc, s.content)

section Import

variable (P : Platform) (policy : RedactionPolicy)

/-- The body of the `try`: the persisted event, with the normalizer and the journal it leaves. -/
def recordAndAppend (s : BatchState) (record : EvidenceRecord) (recordFingerprint : Str) :
    Except PyError EventEnvelope × BatchState :=
  match recordEvidence P record recordFingerprint s.normalizer with
  | (.error exc, normalizer) => (.error exc, { s with normalizer })
  | (.ok event, normalizer) =>
    let appended := appendEvent P policy s.content event
    (appended.1, { s with normalizer, content := appended.2 })

/-- One turn of the loop. -/
def importBatchRecord (seenEntries : IdempotencyEntries) (s : BatchState) (record : EvidenceRecord) :
    BatchStep :=
  match recordIdempotencyFingerprint P record s.normalizer with
  | .error exc => .raised exc s
  | .ok recordFingerprint =>
    let key := record.idempotencyKey.val
    match (seenEntries.lookup key).or (s.batchSeen.lookup key) with
    | some entry => .next (s.report (matchedIdempotencyOutcome record entry recordFingerprint))
    | none =>
      match recordAndAppend P policy s record recordFingerprint with
      | (.ok persisted, s) => .next (s.commit record recordFingerprint persisted)
      | (.error exc, s) =>
        if exc.isJournalError || exc.isValueError then .next (s.report (failedOutcome record exc))
        else .raised exc s

def importBatchRecords (seenEntries : IdempotencyEntries) :
    BatchState → List EvidenceRecord → BatchStep
  | s, [] => .next s
  | s, record :: records =>
    match importBatchRecord P policy seenEntries s record with
    | .next s' => importBatchRecords seenEntries s' records
    | .raised exc s' => .raised exc s'

/-- `import_evidence_batch` into a `LocalJournal`; without `existing_events` there are none. -/
def importEvidenceBatch (normalizer : EvidenceNormalizer) (existingEvents : List EventEnvelope)
    (content : Content) (records : List EvidenceRecord) :
    Except PyError (List IngestOutcome) × Content :=
  (importBatchRecords P policy (existingIdempotencyEntries existingEvents)
    ⟨normalizer, content, [], []⟩ (orderedRecords records)).result

end Import

/-! ## One turn -/

variable {P : Platform} {policy : RedactionPolicy}

/-- One turn of the loop, branch by branch. -/
inductive BatchTurn (P : Platform) (policy : RedactionPolicy) (s : BatchState)
    (record : EvidenceRecord) : BatchStep → Prop
  | raised {exc s'} : BatchTurn P policy s record (.raised exc s')
  | skipped {s' outcome} (hstatus : outcome.status ≠ .imported)
      (houtcomes : s'.outcomes = s.outcomes ++ [outcome]) : BatchTurn P policy s record (.next s')
  | imported {fingerprint event persisted normalizer content}
      (hrecord : recordEvidence P record fingerprint s.normalizer = (.ok event, normalizer))
      (happend : appendEvent P policy s.content event = (.ok persisted, content)) :
      BatchTurn P policy s record
        (.next ({ s with normalizer, content }.commit record fingerprint persisted))

theorem failedOutcome_status (record : EvidenceRecord) (exc : PyError) :
    (failedOutcome record exc).status ≠ .imported := by
  intro h
  cases h

theorem recordAndAppend_outcomes (s : BatchState) (record : EvidenceRecord) (fingerprint : Str) :
    (recordAndAppend P policy s record fingerprint).2.outcomes = s.outcomes := by
  unfold recordAndAppend
  split <;> rfl

theorem recordAndAppend_eq_ok {s s' : BatchState} {record : EvidenceRecord} {fingerprint : Str}
    {persisted : EventEnvelope}
    (h : recordAndAppend P policy s record fingerprint = (.ok persisted, s')) :
    ∃ event normalizer content,
      recordEvidence P record fingerprint s.normalizer = (.ok event, normalizer) ∧
      appendEvent P policy s.content event = (.ok persisted, content) ∧
      s' = { s with normalizer, content } := by
  unfold recordAndAppend at h
  split at h
  · cases h
  · rename_i event normalizer hrecord
    obtain ⟨happend, rfl⟩ := Prod.mk.inj h
    exact ⟨event, normalizer, _, hrecord, Prod.ext happend rfl, rfl⟩

theorem importBatchRecord_turn (seenEntries : IdempotencyEntries) (s : BatchState)
    (record : EvidenceRecord) :
    BatchTurn P policy s record (importBatchRecord P policy seenEntries s record) := by
  unfold importBatchRecord
  split
  · exact .raised
  · rename_i fingerprint hf
    dsimp only
    split
    · exact .skipped (matchedIdempotencyOutcome_status _ _ _) rfl
    · have houtcomes : (recordAndAppend P policy s record fingerprint).2.outcomes = s.outcomes :=
        recordAndAppend_outcomes s record fingerprint
      split
      · rename_i persisted s' hstep
        obtain ⟨event, normalizer, content, hrecord, happend, rfl⟩ := recordAndAppend_eq_ok hstep
        exact .imported hrecord happend
      · rename_i exc s' hstep
        rw [hstep] at houtcomes
        split
        · exact .skipped (failedOutcome_status record exc) (congrArg (· ++ _) houtcomes)
        · exact .raised

/-! ## Imports that import every record -/

/-- The next event will be linked to this one. -/
def LinksTo (policy : RedactionPolicy) (n : EvidenceNormalizer) (last : EventEnvelope) : Prop :=
  ∃ id, n.lastEventId = some id ∧ redactText policy id.val = .ok last.eventId.val

/-- Each event is the parent of the next. -/
abbrev ParentChain : List EventEnvelope → Prop :=
  List.IsChain fun parent e => e.causality.parentEventId = some parent.eventId

theorem Written.appendLine {content : Content} {es : List EventEnvelope} (h : Written P content es)
    {e : EventEnvelope} {line : Bytes} (hcanonical : e.Canonical)
    (hline : serializeEvent P e = .ok line) :
    Written P (ActionLineage.appendLine content line) (es ++ [e]) := by
  obtain ⟨bodies, hbytes, hbodies⟩ := h
  refine ⟨bodies ++ [line], ?_, List.rel_append hbodies (.cons ⟨hcanonical, hline⟩ .nil)⟩
  simp [ActionLineage.appendLine, hbytes, joinLines]

/-- A rooted normalizer's event is appended behind the last one. -/
theorem appended_of_rooted {n n' : EvidenceNormalizer} {record : EvidenceRecord} {fingerprint : Str}
    {event persisted : EventEnvelope} {content content' : Content} {es : List EventEnvelope}
    (hroot : n.rootEventId ≠ none) (hes : Written P content es)
    (hrecord : recordEvidence P record fingerprint n = (.ok event, n'))
    (happend : appendEvent P policy content event = (.ok persisted, content')) :
    n'.rootEventId ≠ none ∧ LinksTo policy n' persisted ∧ Written P content' (es ++ [persisted]) ∧
      ∀ last, LinksTo policy n last → persisted.causality.parentEventId = some last.eventId := by
  obtain ⟨es', hv⟩ := verified_of_appendEvent happend
  obtain ⟨-, line, hprep, rfl⟩ := (appendEvent_eq_ok hv).mp happend
  obtain ⟨⟨clock, idGenerator, rfl⟩, hrecorded⟩ := EvidenceNormalizer.record_eq_ok hrecord
  obtain ⟨hid, -, -⟩ := redactedIds_of_prepared hprep
  refine ⟨by simp [EvidenceNormalizer.emitted], ⟨_, rfl, hid⟩, ?_, ?_⟩
  · obtain ⟨redacted, hash, hfrom, -, -, -, hpersisted, hline⟩ := prepared_cases hprep
    refine hes.appendLine ?_ hline
    rw [hpersisted]
    exact hfrom.canonical.withIntegrity _ _
  · rintro last ⟨id, hlast, hlastId⟩
    refine parentEventId_of_prepared hprep ?_ hlastId
    have hnotRoot : n.isRoot
        { source := record.source, principal := record.principal
          classification := record.classification } = false := by
      cases hr : n.rootEventId with
      | none => exact absurd hr hroot
      | some root => simp [EvidenceNormalizer.isRoot, hr]
    rw [hrecorded.parent, hnotRoot]
    simp [EvidenceNormalizer.resolveParentEventId, hlast]

/-- Outcomes are only added. -/
theorem outcomes_only_added {seenEntries : IdempotencyEntries} {s s' : BatchState}
    {records : List EvidenceRecord}
    (hrun : importBatchRecords P policy seenEntries s records = .next s') :
    s.outcomes <+: s'.outcomes := by
  induction records generalizing s with
  | nil =>
    obtain rfl : s = s' := by simpa [importBatchRecords] using hrun
    exact List.prefix_rfl
  | cons record records ih =>
    have hturn : BatchTurn P policy s record _ := importBatchRecord_turn seenEntries s record
    rw [importBatchRecords] at hrun
    generalize importBatchRecord P policy seenEntries s record = step at hturn hrun
    cases hturn with
    | raised => cases hrun
    | skipped _ houtcomes =>
      have hrest := ih hrun
      rw [houtcomes] at hrest
      exact (List.prefix_append _ _).trans hrest
    | imported => exact (List.prefix_append _ _).trans (ih hrun)

/-- When every record is imported, the first one is. -/
theorem importBatchRecords_cons_imported {seenEntries : IdempotencyEntries} {s s' : BatchState}
    {record : EvidenceRecord} {records : List EvidenceRecord}
    (hrun : importBatchRecords P policy seenEntries s (record :: records) = .next s')
    (hall : ∀ o ∈ s'.outcomes, o.status = .imported) :
    ∃ fingerprint event persisted normalizer content,
      recordEvidence P record fingerprint s.normalizer = (.ok event, normalizer) ∧
      appendEvent P policy s.content event = (.ok persisted, content) ∧
      importBatchRecords P policy seenEntries
        ({ s with normalizer, content }.commit record fingerprint persisted) records = .next s' := by
  have hturn : BatchTurn P policy s record _ := importBatchRecord_turn seenEntries s record
  rw [importBatchRecords] at hrun
  generalize importBatchRecord P policy seenEntries s record = step at hturn hrun
  cases hturn with
  | raised => cases hrun
  | @skipped _ outcome hstatus houtcomes =>
    have hmem : outcome ∈ s'.outcomes := by
      apply (outcomes_only_added hrun).subset
      simp [houtcomes]
    exact absurd (hall outcome hmem) hstatus
  | imported hrecord happend => exact ⟨_, _, _, _, _, hrecord, happend, hrun⟩

/-- When every record is imported, each appends one event behind the last. -/
theorem importBatchRecords_imported {seenEntries : IdempotencyEntries} {s s' : BatchState}
    {records : List EvidenceRecord} {es : List EventEnvelope}
    (hrun : importBatchRecords P policy seenEntries s records = .next s')
    (hall : ∀ o ∈ s'.outcomes, o.status = .imported) (hroot : s.normalizer.rootEventId ≠ none)
    (hes : Written P s.content es) :
    ∃ new, Written P s'.content (es ++ new) ∧ new.length = records.length ∧
      s'.outcomes = s.outcomes ++ List.zipWith importedOutcome records new ∧
      ParentChain new ∧ ∀ last, LinksTo policy s.normalizer last → ParentChain (last :: new) := by
  induction records generalizing s es with
  | nil =>
    obtain rfl : s = s' := by simpa [importBatchRecords] using hrun
    exact ⟨[], by simpa using hes, rfl, by simp, .nil, fun last _ => .singleton last⟩
  | cons record records ih =>
    obtain ⟨fingerprint, event, persisted, normalizer, content, hrecord, happend, hrest⟩ :=
      importBatchRecords_cons_imported hrun hall
    obtain ⟨hroot', hlinks, hes', hparent⟩ := appended_of_rooted hroot hes hrecord happend
    obtain ⟨new, hnew, hlength, houtcomes, -, hchain⟩ := ih hrest hroot' hes'
    refine ⟨persisted :: new, ?_, ?_, ?_, ?_, ?_⟩
    · rwa [List.append_assoc] at hnew
    · simp [hlength]
    · rw [houtcomes]
      simp [BatchState.commit]
    · exact hchain persisted hlinks
    · intro last hlast
      exact .cons_cons (hparent last hlast) (hchain persisted hlinks)

end ActionLineage
