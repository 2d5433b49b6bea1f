import ActionLineage.Evidence.Ingestion
import ActionLineage.Journal.Append

/-!
# The states of an import

`Reached` is the loop of an import as a relation: the states it passes through, with the records it
has dealt with and the events it has appended, record by record. The loop ends in a reached state,
after all records or at a record that breaks off or raises (`importRecords_cases`), so that what
holds of an import is an induction over `Reached` and a case of its last record.

A normalizer that produced an event which was not appended is out of step for good
(`Reached.inStep`): the import appends nothing more.
-/

namespace ActionLineage

open Py

variable {P : Platform} {policy : RedactionPolicy}

/-! ## One record -/

/-- The event is the one the record was turned into: a call on the normalizer `n` produced it. -/
def Produced (n : EvidenceNormalizer) (record : EvidenceRecord) (recordFingerprint : Str)
    (event : EventEnvelope) : Prop :=
  n.Recorded record.eventType (payloadWithIngestMetadata record recordFingerprint)
    { source := record.source, principal := record.principal
      classification := record.classification } event

section Event

variable {s : ImportState} {record : EvidenceRecord} {recordFingerprint : Str}
  {normalizer : EvidenceNormalizer}

/-- An appended event was produced in step and prepared after the last hash. -/
theorem importEvent_eq_ok {persisted : EventEnvelope} {content : Content}
    (h : importEvent P policy s record recordFingerprint = (.ok (persisted, content), normalizer)) :
    ∃ event line, Produced s.normalizer record recordFingerprint event ∧
      (∃ clock idGenerator, normalizer = { s.normalizer with clock, idGenerator }.emitted event) ∧
      event.causality.sequence = s.nextSequence ∧
      prepareEventForAppend P policy event s.previousEventHash = .ok (persisted, line) ∧
      content = appendLine s.content line := by
  unfold importEvent at h
  obtain ⟨happend, hnormalizer⟩ := Prod.mk.inj h
  obtain ⟨event, hevent, happend⟩ := bind_eq_ok.mp happend
  obtain ⟨⟨⟩, hseq, happend⟩ := bind_eq_ok.mp happend
  obtain ⟨⟨r, line⟩, hprep, happend⟩ := bind_eq_ok.mp happend
  obtain ⟨rfl, rfl⟩ := Prod.mk.inj (Except.ok.inj happend)
  obtain ⟨hemitted, hproduced⟩ := EvidenceNormalizer.record_eq_ok (Prod.ext hevent hnormalizer)
  exact ⟨event, line, hproduced, hemitted, of_decide_eq_true (require_eq_ok.mp hseq), hprep, rfl⟩

/-- After a failure the normalizer has produced nothing, or one event that was not appended. -/
theorem importEvent_eq_error {exc : PyError}
    (h : importEvent P policy s record recordFingerprint = (.error exc, normalizer)) :
    ∃ clock idGenerator, normalizer = { s.normalizer with clock, idGenerator } ∨
      ∃ event, normalizer = { s.normalizer with clock, idGenerator }.emitted event := by
  unfold importEvent at h
  obtain ⟨-, hnormalizer⟩ := Prod.mk.inj h
  cases hrecord : recordEvidence P record recordFingerprint s.normalizer with
  | mk result n =>
    rw [hrecord] at hnormalizer
    dsimp only at hnormalizer
    subst hnormalizer
    cases result with
    | error exc' =>
      obtain ⟨clock, idGenerator, hn⟩ := EvidenceNormalizer.record_eq_error hrecord
      exact ⟨clock, idGenerator, .inl hn⟩
    | ok event =>
      obtain ⟨⟨clock, idGenerator, hn⟩, -⟩ := EvidenceNormalizer.record_eq_ok hrecord
      exact ⟨clock, idGenerator, .inr ⟨event, hn⟩⟩

end Event

/-- The entry a key is matched with. -/
def matchedEntry (seenEntries : IdempotencyEntries) (s : ImportState) (record : EvidenceRecord) :
    Option IdempotencyEntry :=
  (seenEntries.lookup record.idempotencyKey.val).or (s.batchSeen.lookup record.idempotencyKey.val)

@[simp] theorem matchedIdempotencyOutcome_key (record : EvidenceRecord) (entry : IdempotencyEntry)
    (recordFingerprint : Str) :
    (matchedIdempotencyOutcome record entry recordFingerprint).idempotencyKey
      = record.idempotencyKey := by
  unfold matchedIdempotencyOutcome
  split <;> rfl

@[simp] theorem matchedIdempotencyOutcome_status (record : EvidenceRecord)
    (entry : IdempotencyEntry) (recordFingerprint : Str) :
    (matchedIdempotencyOutcome record entry recordFingerprint).status ≠ .imported := by
  unfold matchedIdempotencyOutcome
  split
  · exact fun h => by cases h
  · exact fun h => by cases h

/-- One turn of the loop, branch by branch. -/
inductive ImportTurn (P : Platform) (policy : RedactionPolicy) (seenEntries : IdempotencyEntries)
    (s : ImportState) (record : EvidenceRecord) : ImportStep → Prop
  | unwritable {exc} (hf : recordIdempotencyFingerprint P record s.normalizer = .error exc) :
      ImportTurn P policy seenEntries s record (.raised exc s)
  | matched {fingerprint entry}
      (hf : recordIdempotencyFingerprint P record s.normalizer = .ok fingerprint)
      (hentry : matchedEntry seenEntries s record = some entry) :
      ImportTurn P policy seenEntries s record
        (.next (s.report (matchedIdempotencyOutcome record entry fingerprint)))
  | imported {fingerprint persisted content normalizer}
      (hf : recordIdempotencyFingerprint P record s.normalizer = .ok fingerprint)
      (hnew : matchedEntry seenEntries s record = none)
      (himport : importEvent P policy s record fingerprint = (.ok (persisted, content), normalizer)) :
      ImportTurn P policy seenEntries s record
        (.next ({ s with normalizer }.commit record fingerprint persisted content))
  | failed {fingerprint exc normalizer}
      (hf : recordIdempotencyFingerprint P record s.normalizer = .ok fingerprint)
      (hnew : matchedEntry seenEntries s record = none)
      (himport : importEvent P policy s record fingerprint = (.error exc, normalizer)) :
      ImportTurn P policy seenEntries s record (handleFailure { s with normalizer } record exc)

section Turn

variable {seenEntries : IdempotencyEntries} {s : ImportState} {record : EvidenceRecord}
  {fingerprint : Str}

theorem importRecord_unwritable {exc : PyError}
    (hf : recordIdempotencyFingerprint P record s.normalizer = .error exc) :
    importRecord P policy seenEntries s record = .raised exc s := by
  unfold importRecord
  rw [hf]

theorem importRecord_matched {entry : IdempotencyEntry}
    (hf : recordIdempotencyFingerprint P record s.normalizer = .ok fingerprint)
    (hentry : matchedEntry seenEntries s record = some entry) :
    importRecord P policy seenEntries s record
      = .next (s.report (matchedIdempotencyOutcome record entry fingerprint)) := by
  rw [matchedEntry] at hentry
  unfold importRecord
  simp only [hf, hentry]

theorem importRecord_imported {persisted : EventEnvelope} {content : Content}
    {normalizer : EvidenceNormalizer}
    (hf : recordIdempotencyFingerprint P record s.normalizer = .ok fingerprint)
    (hnew : matchedEntry seenEntries s record = none)
    (himport : importEvent P policy s record fingerprint = (.ok (persisted, content), normalizer)) :
    importRecord P policy seenEntries s record
      = .next ({ s with normalizer }.commit record fingerprint persisted content) := by
  rw [matchedEntry] at hnew
  unfold importRecord
  simp only [hf, hnew, himport]

theorem importRecord_failed {exc : PyError} {normalizer : EvidenceNormalizer}
    (hf : recordIdempotencyFingerprint P record s.normalizer = .ok fingerprint)
    (hnew : matchedEntry seenEntries s record = none)
    (himport : importEvent P policy s record fingerprint = (.error exc, normalizer)) :
    importRecord P policy seenEntries s record = handleFailure { s with normalizer } record exc := by
  rw [matchedEntry] at hnew
  unfold importRecord
  simp only [hf, hnew, himport]

theorem importRecord_turn (seenEntries : IdempotencyEntries) (s : ImportState)
    (record : EvidenceRecord) :
    ImportTurn P policy seenEntries s record (importRecord P policy seenEntries s record) := by
  cases hf : recordIdempotencyFingerprint P record s.normalizer with
  | error exc =>
    rw [importRecord_unwritable hf]
    exact .unwritable hf
  | ok fingerprint =>
    cases hentry : matchedEntry seenEntries s record with
    | some entry =>
      rw [importRecord_matched hf hentry]
      exact .matched hf hentry
    | none =>
      cases himport : importEvent P policy s record fingerprint with
      | mk result normalizer =>
        cases result with
        | ok p =>
          rw [importRecord_imported hf hentry himport]
          exact .imported hf hentry himport
        | error exc =>
          rw [importRecord_failed hf hentry himport]
          exact .failed hf hentry himport

end Turn

/-! ## The states the loop reaches -/

/-- The import dealt with `done` and appended the events of `new`, each for its record. -/
inductive Reached (P : Platform) (policy : RedactionPolicy) (seenEntries : IdempotencyEntries)
    (start : ImportState) :
    List EvidenceRecord → ImportState → List (EvidenceRecord × EventEnvelope) → Prop
  | start : Reached P policy seenEntries start [] start []
  | matched {done s new record fingerprint entry} (before : Reached P policy seenEntries start done s new)
      (hf : recordIdempotencyFingerprint P record s.normalizer = .ok fingerprint)
      (hentry : matchedEntry seenEntries s record = some entry) :
      Reached P policy seenEntries start (done ++ [record])
        (s.report (matchedIdempotencyOutcome record entry fingerprint)) new
  | imported {done s new record fingerprint persisted content normalizer}
      (before : Reached P policy seenEntries start done s new)
      (hf : recordIdempotencyFingerprint P record s.normalizer = .ok fingerprint)
      (hnew : matchedEntry seenEntries s record = none)
      (himport : importEvent P policy s record fingerprint = (.ok (persisted, content), normalizer)) :
      Reached P policy seenEntries start (done ++ [record])
        ({ s with normalizer }.commit record fingerprint persisted content)
        (new ++ [(record, persisted)])
  | failed {done s new record fingerprint exc normalizer}
      (before : Reached P policy seenEntries start done s new)
      (hf : recordIdempotencyFingerprint P record s.normalizer = .ok fingerprint)
      (hnew : matchedEntry seenEntries s record = none)
      (himport : importEvent P policy s record fingerprint = (.error exc, normalizer))
      (hexc : exc.isJournalError = false) (hexc' : exc.isValueError = true) :
      Reached P policy seenEntries start (done ++ [record])
        ({ s with normalizer }.report (failedOutcome record exc)) new

/-- The loop breaks off or raises at the record. -/
inductive Ends (P : Platform) (policy : RedactionPolicy) (seenEntries : IdempotencyEntries)
    (s : ImportState) (record : EvidenceRecord) : ImportStep → Prop
  | unwritable {exc} (hf : recordIdempotencyFingerprint P record s.normalizer = .error exc) :
      Ends P policy seenEntries s record (.raised exc s)
  | broken {fingerprint exc normalizer}
      (hf : recordIdempotencyFingerprint P record s.normalizer = .ok fingerprint)
      (hnew : matchedEntry seenEntries s record = none)
      (himport : importEvent P policy s record fingerprint = (.error exc, normalizer))
      (hseen : s.batchSeen ≠ []) (hexc : exc.isJournalError = true) :
      Ends P policy seenEntries s record
        (.stop ({ s with normalizer }.report (failedOutcome record exc)))
  | refused {fingerprint exc normalizer}
      (hf : recordIdempotencyFingerprint P record s.normalizer = .ok fingerprint)
      (hnew : matchedEntry seenEntries s record = none)
      (himport : importEvent P policy s record fingerprint = (.error exc, normalizer))
      (hseen : s.batchSeen = []) (hexc : exc.isJournalError = true) :
      Ends P policy seenEntries s record (.raised exc { s with normalizer })
  | escaped {fingerprint exc normalizer}
      (hf : recordIdempotencyFingerprint P record s.normalizer = .ok fingerprint)
      (hnew : matchedEntry seenEntries s record = none)
      (himport : importEvent P policy s record fingerprint = (.error exc, normalizer))
      (hexc : exc.isJournalError = false) (hexc' : exc.isValueError = false) :
      Ends P policy seenEntries s record (.raised exc { s with normalizer })

section Loop

variable {seenEntries : IdempotencyEntries} {start : ImportState}

/-- A turn goes on to the next reached state or ends the loop. -/
theorem ImportTurn.cases {done : List EvidenceRecord} {s : ImportState}
    {new : List (EvidenceRecord × EventEnvelope)} (hs : Reached P policy seenEntries start done s new)
    {record : EvidenceRecord} {step : ImportStep} (h : ImportTurn P policy seenEntries s record step) :
    (∃ s' new', step = .next s' ∧ Reached P policy seenEntries start (done ++ [record]) s' new') ∨
      Ends P policy seenEntries s record step := by
  cases h with
  | unwritable hf => exact .inr (.unwritable hf)
  | matched hf hentry => exact .inl ⟨_, _, rfl, .matched hs hf hentry⟩
  | imported hf hnew himport => exact .inl ⟨_, _, rfl, .imported hs hf hnew himport⟩
  | @failed fingerprint exc normalizer hf hnew himport =>
    unfold handleFailure
    split_ifs with hjournal hseen hvalue
    · exact .inr (.refused hf hnew himport (List.isEmpty_iff.mp hseen) hjournal)
    · exact .inr (.broken hf hnew himport (by simpa using hseen) hjournal)
    · exact .inl ⟨_, _, rfl, .failed hs hf hnew himport (by simpa using hjournal) hvalue⟩
    · exact .inr (.escaped hf hnew himport (by simpa using hjournal) (by simpa using hvalue))

/-- The loop gets through all records, or ends at one of them. -/
theorem importRecords_cases {done : List EvidenceRecord} {s : ImportState}
    {new : List (EvidenceRecord × EventEnvelope)} (hs : Reached P policy seenEntries start done s new)
    (records : List EvidenceRecord) :
    (∃ s' new', importRecords P policy seenEntries s records = .next s' ∧
      Reached P policy seenEntries start (done ++ records) s' new') ∨
    ∃ before record after s' new', records = before ++ record :: after ∧
      Reached P policy seenEntries start (done ++ before) s' new' ∧
      Ends P policy seenEntries s' record (importRecords P policy seenEntries s records) := by
  induction records generalizing done s new with
  | nil => exact .inl ⟨s, new, rfl, by rwa [List.append_nil]⟩
  | cons record records ih =>
    have hturn : ImportTurn P policy seenEntries s record _ := importRecord_turn seenEntries s record
    rw [importRecords]
    rcases hturn.cases hs with ⟨s₁, new₁, hstep, hs₁⟩ | hends
    · rw [hstep]
      rcases ih hs₁ with ⟨s', new', hrun, hs'⟩ | ⟨before, last, after, s', new', rfl, hs', hends⟩
      · refine .inl ⟨s', new', hrun, ?_⟩
        rwa [List.append_assoc] at hs'
      · refine .inr ⟨record :: before, last, after, s', new', rfl, ?_, hends⟩
        rwa [List.append_assoc] at hs'
    · refine .inr ⟨[], record, records, s, new, rfl, by rwa [List.append_nil], ?_⟩
      generalize importRecord P policy seenEntries s record = step at hends
      cases hends with
      | unwritable hf => exact .unwritable hf
      | broken hf hnew himport hseen hexc => exact .broken hf hnew himport hseen hexc
      | refused hf hnew himport hseen hexc => exact .refused hf hnew himport hseen hexc
      | escaped hf hnew himport hexc hexc' => exact .escaped hf hnew himport hexc hexc'

/-- From the start: all records are dealt with, or the loop ends at one of them. -/
theorem importRecords_reached (P : Platform) (policy : RedactionPolicy)
    (seenEntries : IdempotencyEntries) (start : ImportState)
    (records : List EvidenceRecord) :
    (∃ s new, importRecords P policy seenEntries start records = .next s ∧
      Reached P policy seenEntries start records s new) ∨
    ∃ before record after s new, records = before ++ record :: after ∧
      Reached P policy seenEntries start before s new ∧
      Ends P policy seenEntries s record (importRecords P policy seenEntries start records) := by
  have hcases := importRecords_cases
    (Reached.start : Reached P policy seenEntries start [] start []) records
  simpa only [List.nil_append] using hcases

/-- The loop does pass through the states it reaches. -/
theorem Reached.importRecords_append {done : List EvidenceRecord} {s : ImportState}
    {new : List (EvidenceRecord × EventEnvelope)} (hs : Reached P policy seenEntries start done s new)
    (rest : List EvidenceRecord) :
    importRecords P policy seenEntries start (done ++ rest)
      = importRecords P policy seenEntries s rest := by
  induction hs generalizing rest with
  | start => rfl
  | matched _ hf hentry ih =>
    rw [List.append_assoc, List.singleton_append, ih, importRecords, importRecord_matched hf hentry]
  | imported _ hf hnew himport ih =>
    rw [List.append_assoc, List.singleton_append, ih, importRecords,
      importRecord_imported hf hnew himport]
  | failed _ hf hnew himport hexc hexc' ih =>
    rw [List.append_assoc, List.singleton_append, ih, importRecords,
      importRecord_failed hf hnew himport, handleFailure, hexc, hexc']
    simp

end Loop

/-! ## What the loop keeps -/

/-- The normalizers fill in the same fields. -/
structure SameConfiguration (n n' : EvidenceNormalizer) : Prop where
  correlation : n'.correlation = n.correlation
  source : n'.source = n.source
  principal : n'.principal = n.principal
  classification : n'.classification = n.classification

theorem SameConfiguration.trans {n n' n'' : EvidenceNormalizer} (h : SameConfiguration n n')
    (h' : SameConfiguration n' n'') : SameConfiguration n n'' where
  correlation := h'.correlation.trans h.correlation
  source := h'.source.trans h.source
  principal := h'.principal.trans h.principal
  classification := h'.classification.trans h.classification

/-- A fingerprint depends on the configuration only. -/
theorem SameConfiguration.fingerprint {n n' : EvidenceNormalizer} (h : SameConfiguration n n')
    (record : EvidenceRecord) :
    recordIdempotencyFingerprint P record n' = recordIdempotencyFingerprint P record n := by
  unfold recordIdempotencyFingerprint fingerprintPreimage
  rw [h.correlation, h.source, h.principal, h.classification]

theorem sameConfiguration_importEvent {s : ImportState} {record : EvidenceRecord}
    {recordFingerprint : Str} {result : Except PyError (EventEnvelope × Content)}
    {normalizer : EvidenceNormalizer}
    (h : importEvent P policy s record recordFingerprint = (result, normalizer)) :
    SameConfiguration s.normalizer normalizer := by
  cases result with
  | ok p =>
    obtain ⟨-, -, -, ⟨clock, idGenerator, rfl⟩, -⟩ := importEvent_eq_ok h
    exact ⟨rfl, rfl, rfl, rfl⟩
  | error exc =>
    obtain ⟨clock, idGenerator, rfl | ⟨event, rfl⟩⟩ := importEvent_eq_error h
    · exact ⟨rfl, rfl, rfl, rfl⟩
    · exact ⟨rfl, rfl, rfl, rfl⟩

/-- The records reported as imported, with their outcomes. -/
def importedPairs (records : List EvidenceRecord) (outcomes : List IngestOutcome) :
    List (EvidenceRecord × IngestOutcome) :=
  (records.zip outcomes).filter fun p => p.2.status = .imported

theorem importedPairs_append {records rest : List EvidenceRecord}
    {outcomes tail : List IngestOutcome} (hlen : outcomes.length = records.length) :
    importedPairs (records ++ rest) (outcomes ++ tail)
      = importedPairs records outcomes ++ importedPairs rest tail := by
  unfold importedPairs
  rw [List.zip_append hlen.symm, List.filter_append]

@[simp] theorem importedPairs_failed (record : EvidenceRecord) (rest : List EvidenceRecord)
    (exc : PyError) : importedPairs (record :: rest) [failedOutcome record exc] = [] := by
  simp [importedPairs, failedOutcome]

@[simp] theorem importedPairs_imported (record : EvidenceRecord) (persisted : EventEnvelope) :
    importedPairs [record] [importedOutcome record persisted]
      = [(record, importedOutcome record persisted)] := rfl

@[simp] theorem importedPairs_matched (record : EvidenceRecord) (entry : IdempotencyEntry)
    (recordFingerprint : Str) :
    importedPairs [record] [matchedIdempotencyOutcome record entry recordFingerprint] = [] := by
  simp [importedPairs]

/-- A normalizer of the same configuration turned the record into an event, and this is the event
that was appended for it. -/
def ImportedFrom (P : Platform) (policy : RedactionPolicy) (configuration : EvidenceNormalizer)
    (record : EvidenceRecord) (persisted : EventEnvelope) : Prop :=
  ∃ normalizer fingerprint event previousEventHash line,
    SameConfiguration configuration normalizer ∧
    recordIdempotencyFingerprint P record configuration = .ok fingerprint ∧
    Produced normalizer record fingerprint event ∧
    prepareEventForAppend P policy event previousEventHash = .ok (persisted, line)

namespace Reached

variable {seenEntries : IdempotencyEntries} {start s : ImportState} {done : List EvidenceRecord}
  {new : List (EvidenceRecord × EventEnvelope)}

theorem sameConfiguration (h : Reached P policy seenEntries start done s new) :
    SameConfiguration start.normalizer s.normalizer := by
  induction h with
  | start => exact ⟨rfl, rfl, rfl, rfl⟩
  | matched _ _ _ ih => exact ih
  | imported _ _ _ himport ih => exact ih.trans (sameConfiguration_importEvent himport)
  | failed _ _ _ himport _ _ ih => exact ih.trans (sameConfiguration_importEvent himport)

/-- One outcome for every record, under its key. -/
theorem outcomes_keys (h : Reached P policy seenEntries start done s new)
    (hstart : start.outcomes = []) :
    s.outcomes.map IngestOutcome.idempotencyKey = done.map EvidenceRecord.idempotencyKey := by
  induction h with
  | start => simp [hstart]
  | matched _ _ _ ih => simp [ImportState.report, ih]
  | imported _ _ _ _ ih => simp [ImportState.commit, ih, importedOutcome]
  | failed _ _ _ _ _ _ ih => simp [ImportState.report, ih, failedOutcome]

theorem outcomes_length (h : Reached P policy seenEntries start done s new)
    (hstart : start.outcomes = []) : s.outcomes.length = done.length := by
  have hkeys := congrArg List.length (h.outcomes_keys hstart)
  simpa using hkeys

/-- The imported records are those that an event was appended for. -/
theorem importedPairs_eq (h : Reached P policy seenEntries start done s new)
    (hstart : start.outcomes = []) :
    importedPairs done s.outcomes = new.map fun p => (p.1, importedOutcome p.1 p.2) := by
  induction h with
  | start => simp [importedPairs]
  | matched before _ _ ih =>
    rw [ImportState.report, importedPairs_append (before.outcomes_length hstart), ih,
      importedPairs_matched, List.append_nil]
  | imported before _ _ _ ih =>
    rw [ImportState.commit, importedPairs_append (before.outcomes_length hstart), ih,
      importedPairs_imported, List.map_append, List.map_singleton]
  | failed before _ _ _ _ _ ih =>
    rw [ImportState.report, importedPairs_append (before.outcomes_length hstart), ih,
      importedPairs_failed, List.append_nil]

/-- The batch entries are the keys of the appended events. -/
theorem batchSeen_keys (h : Reached P policy seenEntries start done s new)
    (hstart : start.batchSeen = []) :
    s.batchSeen.map Prod.fst = (new.map fun p => p.1.idempotencyKey.val).reverse := by
  induction h with
  | start => simp [hstart]
  | matched _ _ _ ih => exact ih
  | imported _ _ _ _ ih => simp [ImportState.commit, ih]
  | failed _ _ _ _ _ _ ih => exact ih

theorem batchSeen_eq_nil_iff (h : Reached P policy seenEntries start done s new)
    (hstart : start.batchSeen = []) : s.batchSeen = [] ↔ new = [] := by
  have hkeys := congrArg List.length (h.batchSeen_keys hstart)
  simp only [List.length_map, List.length_reverse] at hkeys
  rw [← List.length_eq_zero_iff, ← List.length_eq_zero_iff, hkeys]

/-- No key is imported twice, and none that an earlier entry has. -/
theorem keys_nodup (h : Reached P policy seenEntries start done s new)
    (hstart : start.batchSeen = []) :
    (new.map fun p => p.1.idempotencyKey.val).Nodup ∧
      ∀ p ∈ new, seenEntries.lookup p.1.idempotencyKey.val = none := by
  induction h with
  | start => simp
  | matched _ _ _ ih => exact ih
  | @imported _ s new record _ _ _ _ before _ hnew _ ih =>
    obtain ⟨hseen, hbatch⟩ := Option.or_eq_none_iff.mp hnew
    have hnotin : record.idempotencyKey.val ∉ new.map fun p => p.1.idempotencyKey.val := by
      rw [← List.mem_reverse, ← before.batchSeen_keys hstart]
      intro hmem
      obtain ⟨p, hp, hkey⟩ := List.mem_map.mp hmem
      rw [List.lookup_eq_none_iff] at hbatch
      have := hbatch p hp
      simp [hkey] at this
    constructor
    · rw [List.map_append, List.nodup_append]
      refine ⟨ih.1, by simp, ?_⟩
      intro a ha b hb
      rintro rfl
      rw [List.map_singleton, List.mem_singleton] at hb
      exact hnotin (hb ▸ ha)
    · intro p hp
      rcases List.mem_append.mp hp with hp | hp
      · exact ih.2 p hp
      · rw [List.mem_singleton.mp hp]
        exact hseen
  | failed _ _ _ _ _ _ ih => exact ih

theorem nextSequence (h : Reached P policy seenEntries start done s new) :
    s.nextSequence = start.nextSequence + new.length := by
  induction h with
  | start => rfl
  | matched _ _ _ ih => exact ih
  | imported _ _ _ _ ih =>
    simp only [ImportState.commit, List.length_append, List.length_singleton, ih]
    omega
  | failed _ _ _ _ _ _ ih => exact ih

/-- The journal is the old one and the lines of the appended events. -/
theorem content_eq (h : Reached P policy seenEntries start done s new) :
    ∃ bodies, List.Forall₂ (fun p b => serializeEvent P p.2 = .ok b) new bodies ∧
      s.content.getD [] = start.content.getD [] ++ joinLines bodies ∧
      (new = [] → s.content = start.content) := by
  induction h with
  | start => exact ⟨[], .nil, by simp [joinLines], fun _ => rfl⟩
  | matched _ _ _ ih => exact ih
  | imported _ _ _ himport ih =>
    obtain ⟨bodies, hbodies, hbytes, -⟩ := ih
    obtain ⟨event, line, -, -, -, hprep, rfl⟩ := importEvent_eq_ok himport
    obtain ⟨-, -, -, -, -, -, -, hline⟩ := prepared_cases hprep
    refine ⟨bodies ++ [line], List.rel_append hbodies (.cons hline .nil), ?_, by simp⟩
    simp [ImportState.commit, appendLine, hbytes, joinLines]
  | failed _ _ _ _ _ _ ih => exact ih

/-- Under the default policy the journal stays verified. -/
theorem verified {es : List EventEnvelope} (h : Reached P (.default P) seenEntries start done s new)
    (hv : Verified P start.content es) (hlen : start.nextSequence = es.length)
    (hhash : start.previousEventHash = terminalHash none es) :
    Verified P s.content (es ++ new.map Prod.snd) ∧
      s.previousEventHash = terminalHash none (es ++ new.map Prod.snd) := by
  induction h with
  | start => simpa using ⟨hv, hhash⟩
  | matched _ _ _ ih => exact ih
  | @imported _ _ new _ _ _ _ _ before _ _ himport ih =>
    obtain ⟨hverified, hprevious⟩ := ih
    obtain ⟨event, line, -, -, hseq, hprep, rfl⟩ := importEvent_eq_ok himport
    rw [hprevious] at hprep
    have hindex : event.causality.sequence = (es ++ new.map Prod.snd).length := by
      rw [hseq, before.nextSequence, hlen, List.length_append, List.length_map]
    have happended := hverified.appendPrepared hindex hprep hverified.keepsHash_default
    rw [List.map_append, ← List.append_assoc]
    refine ⟨happended, ?_⟩
    show _ = terminalHash none _
    rw [List.map_singleton, terminalHash, HashChain.terminal_concat]
    rfl
  | failed _ _ _ _ _ _ ih => exact ih

theorem importedFrom (h : Reached P policy seenEntries start done s new) :
    ∀ p ∈ new, ImportedFrom P policy start.normalizer p.1 p.2 := by
  induction h with
  | start => simp
  | matched _ _ _ ih => exact ih
  | imported before hf _ himport ih =>
    intro p hp
    rcases List.mem_append.mp hp with hp | hp
    · exact ih p hp
    · rw [List.mem_singleton.mp hp]
      have hconfiguration := before.sameConfiguration
      rw [hconfiguration.fingerprint] at hf
      obtain ⟨event, line, hproduced, -, -, hprep, -⟩ := importEvent_eq_ok himport
      exact ⟨_, _, event, _, line, hconfiguration, hf, hproduced, hprep⟩
  | failed _ _ _ _ _ _ ih => exact ih

end Reached

end ActionLineage
