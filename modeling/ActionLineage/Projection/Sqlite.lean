import ActionLineage.Journal.Local

/-!
# The SQLite projection — rows and timeline queries

`rebuildProjection` turns a verified journal into one row per event. A query selects rows and
orders them by `occurred_at, sequence, journal_record_number, event_id`, where the first and the
last are `TEXT` columns and compared byte by byte; the investigation filters are then applied to
the event document stored with the row.

The projection's metadata and its binding to the journal are not part of the model: rows are
queried right after the rebuild.
-/

namespace ActionLineage

open Py

/-- One row of the table `events`. -/
structure EventRow where
  eventId : Str
  specVersion : Str
  eventType : Str
  occurredAt : Str
  observedAt : Str
  traceId : Str
  runId : Str
  spanId : Option Text
  sessionId : Option Text
  rootEventId : Str
  parentEventId : Option Text
  sequence : Nat
  eventHash : Option Text
  previousEventHash : Option Text
  verificationStatus : Option Str
  evidenceSubjectEventId : Option Str
  evidenceEventId : Option Str
  journalRecordNumber : Nat
  eventJson : Str

/-- One event returned from the timeline. -/
structure TimelineEvent where
  journalRecordNumber : Nat
  eventId : Str
  eventType : Str
  occurredAt : Str
  observedAt : Str
  traceId : Str
  runId : Str
  sequence : Nat
  eventHash : Option Text
  verificationStatus : Option Str
  evidenceSubjectEventId : Option Str
  evidenceEventId : Option Str
  event : Obj

/-! ## Indexing -/

/-- `_string_or_none`. -/
def stringOrNone (v : Option Value) : Option Str :=
  match v with
  | some (.str (c :: s)) => some (c :: s)
  | _ => none

/-- Verification status, subject and evidence id, from the evidence link or the payload itself. -/
def evidenceProjectionValues (eventObject : Obj) : Option Str × Option Str × Option Str :=
  match eventObject.get? (lit "payload") with
  | some (.dict payload) =>
    match Obj.get? payload (lit "evidence_link") with
    | some (.dict link) =>
      (stringOrNone (Obj.get? link (lit "verification_status")),
       stringOrNone (Obj.get? link (lit "subject_event_id")),
       stringOrNone (Obj.get? link (lit "evidence_event_id")))
    | _ =>
      (stringOrNone (Obj.get? payload (lit "verification_status")),
       stringOrNone (Obj.get? payload (lit "subject_event_id")),
       stringOrNone (Obj.get? payload (lit "evidence_event_id")))
  | _ => (none, none, none)

/-- `cast(str, event_object[key])`. -/
def castStr (eventObject : Obj) (key : Str) : Str :=
  match eventObject.get? key with
  | some (.str s) => s
  | _ => []

/-- `bytes.decode("utf-8")`. -/
def decodeUtf8 (b : Bytes) : Except PyError Str :=
  ((utf8Decode b).filter fun s => decide (SurrogateFree s)).elim (.error .unicodeDecodeError) .ok

section Projection

variable (P : Platform)

def eventProjectionValues (e : EventEnvelope) (journalRecordNumber : Nat) :
    Except PyError EventRow := do
  let eventObject ← eventToDict P e
  let evidence := evidenceProjectionValues eventObject
  .ok
    { eventId := e.eventId.val
      specVersion := SPEC_VERSION
      eventType := e.eventType.val
      occurredAt := castStr eventObject (lit "occurred_at")
      observedAt := castStr eventObject (lit "observed_at")
      traceId := e.correlation.traceId.val
      runId := e.correlation.runId.val
      spanId := e.correlation.spanId
      sessionId := e.correlation.sessionId
      rootEventId := e.causality.rootEventId.val
      parentEventId := e.causality.parentEventId
      sequence := e.causality.sequence
      eventHash := e.integrity.eventHash
      previousEventHash := e.integrity.previousEventHash
      verificationStatus := evidence.1
      evidenceSubjectEventId := evidence.2.1
      evidenceEventId := evidence.2.2
      journalRecordNumber
      eventJson := ← decodeUtf8 (← serializeEvent P e) }

/-- The rows after indexing one event, and whether one was inserted. -/
def indexEvent (rows : List EventRow) (e : EventEnvelope) (journalRecordNumber : Nat) :
    Except PyError (Bool × List EventRow) := do
  require e.integrity.eventHash.isSome
    (.projectionError "cannot index event without integrity.event_hash")
  let values ← eventProjectionValues P e journalRecordNumber
  match rows.find? fun r => r.eventId == e.eventId.val with
  | some existing =>
    if existing.journalRecordNumber = journalRecordNumber ∧ existing.eventJson = values.eventJson
    then .ok (false, rows)
    else .error (.eventAlreadyIndexed e.eventId.val)
  | none => .ok (true, rows ++ [values])

def indexEvents (rows : List EventRow) : Nat → List EventEnvelope → Except PyError (List EventRow)
  | _, [] => .ok rows
  | recordNumber, e :: es => do
    let indexed ← indexEvent P rows e recordNumber
    indexEvents indexed.2 (recordNumber + 1) es

def rebuildProjection (content : Content) : Except PyError (List EventRow) := do
  let snapshot ← verifiedJournalSnapshot P content none .null
  require snapshot.ok
    (.projectionError "cannot rebuild projection from a journal that fails verification")
  let rows ← indexEvents P [] 1 snapshot.events
  require (decide (snapshot.events.length = snapshot.recordCount))
    (.projectionError "indexed record count does not match verified journal snapshot")
  .ok rows

/-! ## Queries -/

/-- The columns of `ORDER BY`. -/
abbrev OrderKey := Bytes ×ₗ ℕ ×ₗ ℕ ×ₗ Bytes

def EventRow.orderKey (r : EventRow) : OrderKey :=
  toLex (utf8Bytes r.occurredAt,
    toLex (r.sequence, toLex (r.journalRecordNumber, utf8Bytes r.eventId)))

def selectOrdered (rows : List EventRow) (condition : EventRow → Bool) : List EventRow :=
  (rows.filter condition).insertionSort fun a b => a.orderKey ≤ b.orderKey

def timelineEventFromRow (r : EventRow) : Except PyError TimelineEvent := do
  match ← (loadsText (.plain P.recursionLimit) r.eventJson).mapError .ofLoad with
  | .dict event =>
    .ok
      { journalRecordNumber := r.journalRecordNumber, eventId := r.eventId
        eventType := r.eventType, occurredAt := r.occurredAt, observedAt := r.observedAt
        traceId := r.traceId, runId := r.runId, sequence := r.sequence, eventHash := r.eventHash
        verificationStatus := r.verificationStatus
        evidenceSubjectEventId := r.evidenceSubjectEventId, evidenceEventId := r.evidenceEventId
        event }
  | _ => .error (.projectionError "projected event_json is not a JSON object")

/-- The two selectors of `query_timeline`. -/
inductive Selector
  | traceId (value : Str)
  | runId (value : Str)

namespace Selector

def value : Selector → Str
  | traceId v => v
  | runId v => v

/-- The column a selector compares, on an event. -/
def column : Selector → EventEnvelope → Str
  | traceId _, e => e.correlation.traceId.val
  | runId _, e => e.correlation.runId.val

/-- The `WHERE` clause. -/
def matchesRow : Selector → EventRow → Bool
  | traceId v, r => r.traceId == v
  | runId v, r => r.runId == v

end Selector

/-- Binding the selector encodes it; a lone surrogate raises. -/
def queryTimeline (rows : List EventRow) (selector : Selector) :
    Except PyError (List TimelineEvent) := do
  let _ ← (utf8Encode selector.value).elim (.error .unicodeEncodeError) .ok
  (selectOrdered rows selector.matchesRow).mapM (timelineEventFromRow P)

/-! ## Investigation filters -/

structure TimelineFilters where
  traceId : Option Str := none
  runId : Option Str := none
  eventType : Option Str := none
  principalId : Option Str := none
  toolName : Option Str := none
  resource : Option Str := none
  verificationStatus : Option Str := none
  sensitivity : Option Str := none
  trust : Option Str := none
  descriptorHash : Option Str := none

mutual

/-- Texts under one of the keys, at any depth. -/
def payloadValuesForKeys (keys : List Str) : Value → List Str
  | .dict kvs => payloadValuesForKeysMembers keys kvs
  | .list xs => payloadValuesForKeysItems keys xs
  | _ => []

def payloadValuesForKeysMembers (keys : List Str) : Obj → List Str
  | [] => []
  | (k, v) :: kvs =>
    (match v with
      | .str s => if keys.contains k then [s] else []
      | _ => []) ++ payloadValuesForKeys keys v ++ payloadValuesForKeysMembers keys kvs

def payloadValuesForKeysItems (keys : List Str) : List Value → List Str
  | [] => []
  | x :: xs => payloadValuesForKeys keys x ++ payloadValuesForKeysItems keys xs

end

mutual

/-- Every text of a value. -/
def stringValues : Value → List Str
  | .str s => [s]
  | .dict kvs => stringValuesMembers kvs
  | .list xs => stringValuesItems xs
  | _ => []

def stringValuesMembers : Obj → List Str
  | [] => []
  | (_, v) :: kvs => stringValues v ++ stringValuesMembers kvs

def stringValuesItems : List Value → List Str
  | [] => []
  | x :: xs => stringValues x ++ stringValuesItems xs

end

/-- A filter that is not given, or the check it asks for. -/
def filterOk (filter : Option Str) (check : Str → Bool) : Bool :=
  match filter with
  | none => true
  | some s => check s

/-- `isinstance(value, Mapping) and value.get(key) == text`. -/
def memberIs (v : Option Value) (key text : Str) : Bool :=
  match v with
  | some (.dict kvs) =>
    match Obj.get? kvs key with
    | some (.str s) => s == text
    | _ => false
  | _ => false

def timelineEventMatches (t : TimelineEvent) (f : TimelineFilters) : Bool :=
  let payload := (t.event.get? (lit "payload")).getD .null
  filterOk f.traceId (fun s => t.traceId == s)
    && filterOk f.runId (fun s => t.runId == s)
    && filterOk f.eventType (fun s => t.eventType == s)
    && filterOk f.verificationStatus (fun s => t.verificationStatus == some s)
    && filterOk f.principalId
      (memberIs (t.event.get? (lit "principal")) (lit "principal_id"))
    && filterOk f.sensitivity
      (memberIs (t.event.get? (lit "classification")) (lit "sensitivity"))
    && filterOk f.trust (memberIs (t.event.get? (lit "classification")) (lit "trust"))
    && filterOk f.toolName
      (payloadValuesForKeys [lit "name", lit "tool", lit "tool_name"] payload).contains
    && filterOk f.descriptorHash
      (payloadValuesForKeys [lit "descriptor_hash"] payload).contains
    && filterOk f.resource (stringValues payload).contains

def queryFilteredTimeline (rows : List EventRow) (filters : TimelineFilters) :
    Except PyError (List TimelineEvent) := do
  let events ← (selectOrdered rows fun _ => true).mapM (timelineEventFromRow P)
  .ok (events.filter fun t => timelineEventMatches t filters)

end Projection

end ActionLineage
