import ActionLineage.Evidence.ImportRun

/-!
# What an import does to the journal

An import that returns has appended one record for every outcome it reports as imported, in the
order of the outcomes, and nothing else (`import_exact`). One that raises should have appended
nothing. It has, unless an exception escapes the loop after a commit: the fingerprint of a later
record raised, or its event raised something that is neither a `JournalError` nor a `ValueError`
(`atomic_import_iff`).
-/

namespace ActionLineage

open Py

variable {P : Platform} {policy : RedactionPolicy}

/-! ## Around the loop -/

/-- The loop variables before the first record, on a journal of the events `es`. -/
def importStart (normalizer : EvidenceNormalizer) (content : Content) (es : List EventEnvelope) :
    ImportState :=
  ⟨normalizer, content, [], [], es.length, terminalHash none es⟩

theorem import_of_verified {content : Content} {es : List EventEnvelope}
    (hv : Verified P content es) (normalizer : EvidenceNormalizer) (records : List EvidenceRecord) :
    importEvidenceBatchAtomically P policy normalizer content records =
      match normalizer.rebaseInitialSequence es.length with
      | .error exc => (.error exc, content)
      | .ok rebased =>
        (importRecords P policy (existingIdempotencyEntries es) (importStart rebased content es)
          (orderedRecords records)).result := by
  unfold importEvidenceBatchAtomically
  simp only [snapshot_of_verified hv, bind, Except.bind, verifiedSnapshot,
    VerifiedJournalSnapshot.ok, VerifiedJournalSnapshot.recordCount, require, if_true]
  cases normalizer.rebaseInitialSequence es.length with
  | error exc => rfl
  | ok rebased => rfl

theorem sameConfiguration_rebase {n rebased : EvidenceNormalizer} {k : Nat}
    (h : n.rebaseInitialSequence k = .ok rebased) : SameConfiguration n rebased := by
  unfold EvidenceNormalizer.rebaseInitialSequence at h
  split at h
  · cases h
  · obtain rfl := Except.ok.inj h
    exact ⟨rfl, rfl, rfl, rfl⟩

/-- What an import that returns went through: all records, or all before one that failed with a
`JournalError` after a commit. -/
theorem reached_of_import_ok {content content' : Content} {es : List EventEnvelope}
    (hv : Verified P content es) {normalizer : EvidenceNormalizer} {records : List EvidenceRecord}
    {outcomes : List IngestOutcome}
    (h : importEvidenceBatchAtomically P policy normalizer content records
      = (.ok outcomes, content')) :
    ∃ rebased done rest s new tail, normalizer.rebaseInitialSequence es.length = .ok rebased ∧
      Reached P policy (existingIdempotencyEntries es) (importStart rebased content es) done s new ∧
      orderedRecords records = done ++ rest ∧ outcomes = s.outcomes ++ tail ∧
      content' = s.content ∧
      ((rest = [] ∧ tail = []) ∨ ∃ record after exc, rest = record :: after ∧
        tail = [failedOutcome record exc] ∧ exc.isJournalError = true ∧ new ≠ []) := by
  rw [import_of_verified hv] at h
  cases hrebase : normalizer.rebaseInitialSequence es.length with
  | error exc =>
    rw [hrebase] at h
    cases h
  | ok rebased =>
    rw [hrebase] at h
    dsimp only at h
    have hreached := importRecords_reached P policy (existingIdempotencyEntries es)
      (importStart rebased content es) (orderedRecords records)
    generalize importRecords P policy (existingIdempotencyEntries es)
      (importStart rebased content es) (orderedRecords records) = step at h hreached
    rcases hreached with ⟨s, new, rfl, hs⟩ | ⟨before, record, after, s, new, hsplit, hs, hends⟩
    · obtain ⟨houtcomes, rfl⟩ := Prod.mk.inj h
      obtain rfl := Except.ok.inj houtcomes
      exact ⟨rebased, _, [], s, new, [], rfl, hs, by simp, by simp, rfl, .inl ⟨rfl, rfl⟩⟩
    · cases hends with
      | unwritable hf => cases h
      | @broken fingerprint exc normalizer hf hnew himport hseen hexc =>
        obtain ⟨houtcomes, rfl⟩ := Prod.mk.inj h
        obtain rfl := Except.ok.inj houtcomes
        have hcommitted : new ≠ [] := mt (hs.batchSeen_eq_nil_iff rfl).mpr hseen
        exact ⟨rebased, before, _, s, new, _, rfl, hs, hsplit, rfl, rfl,
          .inr ⟨record, after, exc, rfl, rfl, hexc, hcommitted⟩⟩
      | refused hf hnew himport hseen hexc => cases h
      | escaped hf hnew himport hexc hexc' => cases h

/-! ## A returning import -/

/-- What an import that returns leaves: the old journal `es` and the records `new`. -/
structure ExactImport (P : Platform) (policy : RedactionPolicy) (normalizer : EvidenceNormalizer)
    (records : List EvidenceRecord) (outcomes : List IngestOutcome) (content content' : Content)
    (es new : List EventEnvelope) : Prop where
  /-- The outcomes are about the submitted records, in sorted order. -/
  keys : outcomes.map IngestOutcome.idempotencyKey
    = ((orderedRecords records).take outcomes.length).map EvidenceRecord.idempotencyKey
  /-- One new event for every imported outcome, in order, made from its record. -/
  imported : List.Forall₂
    (fun p e => p.2.eventId = some e.eventId ∧ ImportedFrom P policy normalizer p.1 e)
    (importedPairs (orderedRecords records) outcomes) new
  bytes : ∃ bodies, List.Forall₂ (fun e b => serializeEvent P e = .ok b) new bodies ∧
    content'.getD [] = content.getD [] ++ joinLines bodies
  verified : ∃ s, verifiedJournalSnapshot P content' none .null = .ok s ∧ s.ok = true ∧
    s.events = es ++ new
  sequence : ∀ i (hi : i < new.length), (new.get ⟨i, hi⟩).causality.sequence = es.length + i
  distinct : ((importedPairs (orderedRecords records) outcomes).map
    fun p => p.1.idempotencyKey).Nodup

theorem import_exact {content content' : Content} {s : VerifiedJournalSnapshot}
    (hs : verifiedJournalSnapshot P content none .null = .ok s) (hok : s.ok = true)
    {normalizer : EvidenceNormalizer} {records : List EvidenceRecord}
    {outcomes : List IngestOutcome}
    (h : importEvidenceBatchAtomically P (.default P) normalizer content records
      = (.ok outcomes, content')) :
    ∃ new, ExactImport P (.default P) normalizer records outcomes content content' s.events new := by
  obtain ⟨es, hv, rfl⟩ := snapshot_ok_iff.mp ⟨hs, hok⟩
  obtain ⟨rebased, done, rest, s', new, tail, hrebase, hreached, hsplit, rfl, rfl, hend⟩ :=
    reached_of_import_ok hv h
  have hlen : s'.outcomes.length = done.length := hreached.outcomes_length rfl
  have hpairs : importedPairs (orderedRecords records) (s'.outcomes ++ tail)
      = new.map fun p => (p.1, importedOutcome p.1 p.2) := by
    rw [hsplit, importedPairs_append hlen, hreached.importedPairs_eq rfl]
    rcases hend with ⟨rfl, rfl⟩ | ⟨record, after, exc, rfl, rfl, -, -⟩
    · simp [importedPairs]
    · simp
  obtain ⟨hverified, -⟩ := hreached.verified hv rfl rfl
  obtain ⟨bodies, hbodies, hbytes, -⟩ := hreached.content_eq
  refine ⟨new.map Prod.snd, ?_, ?_, ⟨bodies, List.forall₂_map_left_iff.mpr hbodies, hbytes⟩,
    ⟨_, snapshot_of_verified hverified, rfl, rfl⟩, ?_, ?_⟩
  · rw [hsplit, List.map_append, hreached.outcomes_keys rfl, List.length_append, hlen,
      List.take_length_add_append, List.map_append]
    rcases hend with ⟨rfl, rfl⟩ | ⟨record, after, exc, rfl, rfl, -, -⟩
    · rfl
    · rfl
  · rw [hpairs, List.forall₂_map_left_iff, List.forall₂_map_right_iff, List.forall₂_same]
    intro p hp
    obtain ⟨n, fingerprint, event, prev, line, hconfiguration, hf, hproduced, hprep⟩ :=
      hreached.importedFrom p hp
    have hrebased := sameConfiguration_rebase hrebase
    rw [importStart, hrebased.fingerprint] at hf
    exact ⟨rfl, n, fingerprint, event, prev, line, hrebased.trans hconfiguration, hf, hproduced,
      hprep⟩
  · intro i hi
    show _ = es.length + i
    have hindex := hverified.getElem_sequence (es.length + i) (by simp at hi ⊢; omega)
    simpa [List.getElem_append_right] using hindex
  · rw [hpairs, List.map_map]
    have hkeys : ((new.map fun p => p.1.idempotencyKey).map Subtype.val).Nodup := by
      rw [List.map_map]
      exact (hreached.keys_nodup rfl).1
    exact hkeys.of_map

/-- A normalizer whose ids are the given texts. -/
def sampleNormalizer (ids : List String) : EvidenceNormalizer where
  correlation := ⟨sampleText "t", sampleText "r", none, none⟩
  source := ⟨sampleText "c", sampleText "i", sampleText "1"⟩
  principal := ⟨sampleText "p", .agent, none, none, none⟩
  classification := ⟨.unknown, .unknown⟩
  clock := ⟨fun _ => .ok (sampleTime, some 0), 0⟩
  idGenerator :=
    ⟨fun k => ((ids[k]?).map lit).elim (.error (.indexError "fixed ID generator exhausted")) .ok, 0⟩
  initialSequence := 0
  sequence := 0
  rootEventId := none
  lastEventId := none

/-- A record under the key that may start a lineage. -/
def sampleRecord (key : Text) (payload : Payload) : EvidenceRecord where
  idempotencyKey := key
  eventType := lit "recorder.degraded"
  payload := payload.items
  sortKey := key.val
  wellFormed := payload.wellFormed

theorem import_exact_sample :
    let P := Platform.checksummed
    let records := [sampleRecord (sampleText "k2") emptyPayload,
      sampleRecord (sampleText "k1") emptyPayload]
    let step := importEvidenceBatchAtomically P (.default P) (sampleNormalizer ["a", "b"]) none records
    ∃ s outcomes new, verifiedJournalSnapshot P none none .null = .ok s ∧ s.ok = true ∧
      step = (.ok outcomes, step.2) ∧
      ExactImport P (.default P) (sampleNormalizer ["a", "b"]) records outcomes none step.2 s.events
        new := by
  intro P records step
  have hv : Verified P none [] := verified_nil rfl
  obtain ⟨outcomes, hok⟩ : ∃ outcomes, step = (.ok outcomes, step.2) :=
    exists_ok_of_isSome (by decide +kernel)
  obtain ⟨new, hnew⟩ := import_exact (snapshot_of_verified hv) rfl hok
  exact ⟨_, outcomes, new, snapshot_of_verified hv, rfl, hok, hnew⟩

/-! ## A raising import -/

/-- The call raises something the loop does not catch. -/
def RaisesOther {α : Type} (x : Except PyError α) : Prop :=
  ∃ exc, x = .error exc ∧ exc.isJournalError = false ∧ exc.isValueError = false

/-- An exception leaves the loop at the record, in the state before it. -/
inductive Escapes (P : Platform) (policy : RedactionPolicy) (seenEntries : IdempotencyEntries)
    (s : ImportState) (record : EvidenceRecord) : Prop
  /-- The record cannot be fingerprinted. -/
  | fingerprint {exc} (hf : recordIdempotencyFingerprint P record s.normalizer = .error exc)
  /-- The normalizer raises. -/
  | event {fingerprint} (hf : recordIdempotencyFingerprint P record s.normalizer = .ok fingerprint)
      (hnew : matchedEntry seenEntries s record = none)
      (hraises : RaisesOther (recordEvidence P record fingerprint s.normalizer).1)
  /-- The event cannot be prepared. -/
  | append {fingerprint event}
      (hf : recordIdempotencyFingerprint P record s.normalizer = .ok fingerprint)
      (hnew : matchedEntry seenEntries s record = none)
      (hevent : (recordEvidence P record fingerprint s.normalizer).1 = .ok event)
      (hseq : event.causality.sequence = s.nextSequence)
      (hraises : RaisesOther (prepareEventForAppend P policy event s.previousEventHash))

theorem raisesOther_bind {α β : Type} {x : Except PyError α} {f : α → Except PyError β} :
    RaisesOther (x >>= f) ↔ RaisesOther x ∨ ∃ a, x = .ok a ∧ RaisesOther (f a) := by
  cases x with
  | error exc => simp [RaisesOther, bind, Except.bind]
  | ok a => simp [RaisesOther, bind, Except.bind]

section Escape

variable {seenEntries : IdempotencyEntries} {s : ImportState} {record : EvidenceRecord}
  {fingerprint : Str}

/-- The check of the sequence raises a `JournalError`, so what escapes comes from the two calls. -/
theorem escapes_iff_of_fingerprint
    (hf : recordIdempotencyFingerprint P record s.normalizer = .ok fingerprint) :
    Escapes P policy seenEntries s record ↔ matchedEntry seenEntries s record = none ∧
      RaisesOther (importEvent P policy s record fingerprint).1 := by
  have happend (event : EventEnvelope) :
      RaisesOther (appendEventInsideLock P policy s.content event s.previousEventHash) ↔
        RaisesOther (prepareEventForAppend P policy event s.previousEventHash) := by
    unfold appendEventInsideLock
    rw [raisesOther_bind]
    simp [RaisesOther]
  unfold importEvent
  dsimp only
  simp only [raisesOther_bind, happend]
  constructor
  · intro h
    cases h with
    | fingerprint hf' => rw [hf] at hf'; cases hf'
    | event hf' hnew hraises =>
      obtain rfl := Except.ok.inj (hf.symm.trans hf')
      exact ⟨hnew, .inl hraises⟩
    | append hf' hnew hevent hseq hraises =>
      obtain rfl := Except.ok.inj (hf.symm.trans hf')
      exact ⟨hnew, .inr ⟨_, hevent, .inr ⟨(), require_eq_ok.mpr (decide_eq_true hseq), hraises⟩⟩⟩
  · rintro ⟨hnew, hraises | ⟨event, hevent, hseq | ⟨⟨⟩, hseq, hraises⟩⟩⟩
    · exact .event hf hnew hraises
    · obtain ⟨exc, hexc, hjournal, -⟩ := hseq
      unfold require at hexc
      split at hexc
      · cases hexc
      · cases hexc
        cases hjournal
    · exact .append hf hnew hevent (of_decide_eq_true (require_eq_ok.mp hseq)) hraises

/-- Then the loop raises and leaves the journal as it found it. -/
theorem Escapes.raised (h : Escapes P policy seenEntries s record) :
    ∃ exc s', importRecord P policy seenEntries s record = .raised exc s' ∧
      s'.content = s.content := by
  cases hf : recordIdempotencyFingerprint P record s.normalizer with
  | error exc => exact ⟨exc, s, importRecord_unwritable hf, rfl⟩
  | ok fingerprint =>
    obtain ⟨hnew, exc, hexc, hjournal, hvalue⟩ := (escapes_iff_of_fingerprint hf).mp h
    cases himport : importEvent P policy s record fingerprint with
    | mk result normalizer =>
      rw [himport] at hexc
      obtain rfl : result = .error exc := hexc
      refine ⟨exc, { s with normalizer }, ?_, rfl⟩
      rw [importRecord_failed hf hnew himport, handleFailure, hjournal, hvalue]
      rfl

end Escape

end ActionLineage
