import ActionLineage.Evidence.Normalization
import ActionLineage.Journal.Local

/-!
# Atomic batch import — `import_evidence_batch_atomically`

The import holds the journal lock, so it is a function of the journal content. `importRecord` is one
turn of its loop, with `break` and an escaping exception as results of their own; `importRecords` is
the loop. The turn looks the key up in the entries of the journal and of the batch, and only then
produces, checks, redacts and appends an event.

The fingerprint is taken before the `try`: what it raises is never caught.
-/

namespace ActionLineage

open Py

def INGEST_RECORD_FINGERPRINT_VERSION : Str := lit "actionlineage.dev/ingest-record-fingerprint-v1"

def INGESTION_PROVENANCE_VERSION : Str := lit "actionlineage.dev/ingestion-provenance-v1"

inductive EvidenceSourceKind
  | localFunction | file | http | mcp | externalJson | fixture | unknown
deriving DecidableEq, Repr

def EvidenceSourceKind.text : EvidenceSourceKind → Str
  | localFunction => lit "local_function"
  | file => lit "file"
  | http => lit "http"
  | mcp => lit "mcp"
  | externalJson => lit "external_json"
  | fixture => lit "fixture"
  | unknown => lit "unknown"

inductive IngestOutcomeStatus
  | imported | duplicate | conflict | failed
deriving DecidableEq, Repr

structure EvidenceRecord where
  idempotencyKey : Text
  eventType : Str
  payload : Obj
  sourceKind : EvidenceSourceKind := .unknown
  sortKey : Str := []
  source : Option Source := none
  principal : Option Principal := none
  classification : Option Classification := none
  /-- A `dict` holds a key once. -/
  wellFormed : (Value.dict payload).WellFormed

structure IngestOutcome where
  idempotencyKey : Text
  status : IngestOutcomeStatus
  eventId : Option Text := none
  error : Option Str := none

structure IdempotencyEntry where
  eventId : Text
  recordFingerprint : Option Str

/-- A `dict[str, _IdempotencyEntry]`, the last assignment first. -/
abbrev IdempotencyEntries := List (Str × IdempotencyEntry)

/-! ## Keys and fingerprints -/

section Idempotency

variable (P : Platform)

/-- The value of the `"ingest"` member. -/
def ingestMetadata (record : EvidenceRecord) (recordFingerprint : Str) : Value := .dict
  [(lit "fingerprint_version", .str INGEST_RECORD_FINGERPRINT_VERSION),
   (lit "idempotency_key", .str record.idempotencyKey.val),
   (lit "record_fingerprint", .str recordFingerprint),
   (lit "source_kind", .str record.sourceKind.text)]

/-- `_payload_with_ingest_metadata`. -/
def payloadWithIngestMetadata (record : EvidenceRecord) (recordFingerprint : Str) : Obj :=
  Obj.set record.payload (lit "ingest") (ingestMetadata record recordFingerprint)

/-- A nonempty text under the name, if `ingest` is a mapping that has one. -/
def ingestText (name : Str) (ingest : Option Value) : Option Str :=
  match ingest with
  | some (.dict kvs) =>
    match Obj.get? kvs name with
    | some (.str s) => if s = [] then none else some s
    | _ => none
  | _ => none

/-- `_event_idempotency_key_from_ingest`. -/
def eventIdempotencyKeyFromIngest : Option Value → Option Str := ingestText (lit "idempotency_key")

/-- `_event_idempotency_fingerprint_from_ingest`. -/
def eventIdempotencyFingerprintFromIngest : Option Value → Option Str :=
  ingestText (lit "record_fingerprint")

/-- `_existing_idempotency_entries`, of the events of a verified snapshot. -/
def existingIdempotencyEntries (events : List EventEnvelope) : IdempotencyEntries :=
  events.foldl (fun entries event =>
    let ingest := Obj.get? event.payload.items (lit "ingest")
    match eventIdempotencyKeyFromIngest ingest with
    | some key => (key, ⟨event.eventId, eventIdempotencyFingerprintFromIngest ingest⟩) :: entries
    | none => entries) []

/-- `_is_service_ingestion_provenance`. -/
def isServiceIngestionProvenance (value : Option Value) : Bool :=
  match value with
  | some (.dict kvs) =>
    match Obj.get? kvs (lit "schema_version") with
    | some (.str s) => s == INGESTION_PROVENANCE_VERSION
    | _ => false
  | _ => false

/-- `d.pop(k, None)`. -/
def popKey (kvs : Obj) (k : Str) : Obj := kvs.filter fun p => p.1 ≠ k

/-- The document a fingerprint is taken of. -/
def fingerprintPreimage (record : EvidenceRecord) (normalizer : EvidenceNormalizer) : Value :=
  let payload :=
    if isServiceIngestionProvenance (Obj.get? record.payload (lit "ingested_by")) then
      popKey record.payload (lit "ingested_by")
    else record.payload
  .dict
    [(lit "classification", (record.classification.getD normalizer.classification).json),
     (lit "correlation", normalizer.correlation.json), (lit "event_type", .str record.eventType),
     (lit "idempotency_key", .str record.idempotencyKey.val),
     (lit "payload", .dict (popKey payload (lit "ingest"))),
     (lit "principal", (record.principal.getD normalizer.principal).json),
     (lit "sort_key", .str record.sortKey),
     (lit "source", (record.source.getD normalizer.source).json),
     (lit "source_kind", .str record.sourceKind.text),
     (lit "version", .str INGEST_RECORD_FINGERPRINT_VERSION)]

/-- `_record_idempotency_fingerprint`. -/
def recordIdempotencyFingerprint (record : EvidenceRecord) (normalizer : EvidenceNormalizer) :
    Except PyError Str := do
  .ok (P.sha256Digest (← deterministicJsonBytes (fingerprintPreimage record normalizer)))

/-- `_matched_idempotency_outcome`. -/
def matchedIdempotencyOutcome (record : EvidenceRecord) (entry : IdempotencyEntry)
    (recordFingerprint : Str) : IngestOutcome :=
  if entry.recordFingerprint = none ∨ entry.recordFingerprint = some recordFingerprint then
    { idempotencyKey := record.idempotencyKey, status := .duplicate, eventId := some entry.eventId }
  else
    { idempotencyKey := record.idempotencyKey, status := .conflict, eventId := some entry.eventId
      error := some (lit "idempotency key already used for different evidence record") }

end Idempotency

/-- `_safe_error_message`. -/
def safeErrorMessage : PyError → Str
  | .journalError _ => lit "JournalError"
  | .journalAppendError _ => lit "JournalAppendError"
  | _ => lit "evidence record could not be imported"

def failedOutcome (record : EvidenceRecord) (exc : PyError) : IngestOutcome :=
  { idempotencyKey := record.idempotencyKey, status := .failed, error := some (safeErrorMessage exc) }

def importedOutcome (record : EvidenceRecord) (persisted : EventEnvelope) : IngestOutcome :=
  { idempotencyKey := record.idempotencyKey, status := .imported
    eventId := some persisted.eventId }

/-! ## The loop -/

/-- The variables of the loop, and the journal it appends to. -/
structure ImportState where
  normalizer : EvidenceNormalizer
  content : Content
  batchSeen : IdempotencyEntries
  outcomes : List IngestOutcome
  nextSequence : Nat
  previousEventHash : Option Text

namespace ImportState

def report (s : ImportState) (outcome : IngestOutcome) : ImportState :=
  { s with outcomes := s.outcomes ++ [outcome] }

/-- The loop variables after the event was appended. -/
def commit (s : ImportState) (record : EvidenceRecord) (recordFingerprint : Str)
    (persisted : EventEnvelope) (content : Content) : ImportState :=
  { s with
    content := content
    nextSequence := s.nextSequence + 1
    previousEventHash := persisted.integrity.eventHash
    batchSeen := (record.idempotencyKey.val, ⟨persisted.eventId, some recordFingerprint⟩)
      :: s.batchSeen
    outcomes := s.outcomes ++ [importedOutcome record persisted] }

end ImportState

/-- How a turn of the loop ends. -/
inductive ImportStep
  | next (s : ImportState)
  /-- `break`. -/
  | stop (s : ImportState)
  | raised (exc : PyError) (s : ImportState)

/-- What the import returns or raises when the loop is left, and the journal. -/
def ImportStep.result : ImportStep → Except PyError (List IngestOutcome) × Content
  | next s => (.ok s.outcomes, s.content)
  | stop s => (.ok s.outcomes, s.content)
  | raised exc s => (.error exc, s.content)

section Import

variable (P : Platform) (policy : RedactionPolicy)

/-- `_append_event_inside_lock`: the persisted event and the journal after it. -/
def appendEventInsideLock (content : Content) (event : EventEnvelope)
    (previousEventHash : Option Text) : Except PyError (EventEnvelope × Content) := do
  let (redactedEvent, canonicalBytes) ← prepareEventForAppend P policy event previousEventHash
  .ok (redactedEvent, appendLine content canonicalBytes)

/-- The call on the normalizer that turns the record into an event. -/
def recordEvidence (record : EvidenceRecord) (recordFingerprint : Str) : Recording EventEnvelope :=
  EvidenceNormalizer.record P record.eventType (payloadWithIngestMetadata record recordFingerprint)
    { source := record.source, principal := record.principal
      classification := record.classification }

/-- The body of the `try`, with the normalizer it leaves. -/
def importEvent (s : ImportState) (record : EvidenceRecord) (recordFingerprint : Str) :
    Except PyError (EventEnvelope × Content) × EvidenceNormalizer :=
  let recorded := recordEvidence P record recordFingerprint s.normalizer
  let appended := do
    let event ← recorded.1
    require (decide (event.causality.sequence = s.nextSequence))
      (.journalAppendError ("event sequence " ++ toString event.causality.sequence ++
        " does not match next journal sequence " ++ toString s.nextSequence))
    appendEventInsideLock P policy s.content event s.previousEventHash
  (appended, recorded.2)

/-- The handlers of the `try`. -/
def handleFailure (s : ImportState) (record : EvidenceRecord) (exc : PyError) : ImportStep :=
  if exc.isJournalError then
    if s.batchSeen.isEmpty then .raised exc s else .stop (s.report (failedOutcome record exc))
  else if exc.isValueError then .next (s.report (failedOutcome record exc))
  else .raised exc s

/-- One turn of the loop. -/
def importRecord (seenEntries : IdempotencyEntries) (s : ImportState) (record : EvidenceRecord) :
    ImportStep :=
  match recordIdempotencyFingerprint P record s.normalizer with
  | .error exc => .raised exc s
  | .ok recordFingerprint =>
    let key := record.idempotencyKey.val
    match (seenEntries.lookup key).or (s.batchSeen.lookup key) with
    | some entry => .next (s.report (matchedIdempotencyOutcome record entry recordFingerprint))
    | none =>
      match importEvent P policy s record recordFingerprint with
      | (.ok (persisted, content), normalizer) =>
        .next ({ s with normalizer }.commit record recordFingerprint persisted content)
      | (.error exc, normalizer) => handleFailure { s with normalizer } record exc

def importRecords (seenEntries : IdempotencyEntries) : ImportState → List EvidenceRecord → ImportStep
  | s, [] => .next s
  | s, record :: records =>
    match importRecord P policy seenEntries s record with
    | .next s' => importRecords seenEntries s' records
    | .stop s' => .stop s'
    | .raised exc s' => .raised exc s'

/-- `(item.sort_key, item.idempotency_key)`. -/
def EvidenceRecord.orderKey (r : EvidenceRecord) : Str ×ₗ Str :=
  toLex (r.sortKey, r.idempotencyKey.val)

def orderedRecords (records : List EvidenceRecord) : List EvidenceRecord :=
  records.insertionSort fun a b => a.orderKey ≤ b.orderKey

/-- The loop variables before the first turn. -/
def ImportState.start (normalizer : EvidenceNormalizer) (content : Content)
    (snapshot : VerifiedJournalSnapshot) : ImportState :=
  ⟨normalizer, content, [], [], snapshot.recordCount, snapshot.terminalHash⟩

/-- `import_evidence_batch_atomically`: the outcomes it returns or what it raises, and the content
it leaves. -/
def importEvidenceBatchAtomically (normalizer : EvidenceNormalizer) (content : Content)
    (records : List EvidenceRecord) : Except PyError (List IngestOutcome) × Content :=
  let prepared := do
    let snapshot ← verifiedJournalSnapshot P content none .null
    require snapshot.ok (.journalAppendError "cannot append to a journal that fails verification")
    let normalizer ← normalizer.rebaseInitialSequence snapshot.recordCount
    .ok (snapshot, normalizer)
  match prepared with
  | .error exc => (.error exc, content)
  | .ok (snapshot, normalizer) =>
    (importRecords P policy (existingIdempotencyEntries snapshot.events)
      (.start normalizer content snapshot) (orderedRecords records)).result

end Import

end ActionLineage
