import ActionLineage.Adapters.Frameworks
import ActionLineage.Service.Auth

/-!
# The ingest endpoint — `service/api.py`

A request body becomes a normalizer and evidence records, and the records are imported as one batch.
Who sent them is stated by the server: every payload gets the provenance of the request under
`ingested_by`, and a body that brings its own is refused.

The texts that answers make out of an exception are not part of the model; the exception is.
-/

namespace ActionLineage

open Py

/-! ## Reading a JSON body -/

namespace JsonObject

theorem wellFormed_of_get? {o : JsonObject} {key : Str} {v : Value}
    (h : Obj.get? o.items key = some v) : v.WellFormed :=
  ((Value.all_dict _).mp o.wellFormed).2 _ (Obj.mem_of_get? h)

/-- `o.get(key)`. -/
def get? (o : JsonObject) (key : Str) : Option JsonValue :=
  (Obj.get? o.items key).attach.map fun v => ⟨v.1, wellFormed_of_get? (Option.mem_def.mp v.2)⟩

/-- `isinstance(v, dict)`. -/
def ofValue? : JsonValue → Option JsonObject
  | ⟨.dict items, h⟩ => some ⟨items, h⟩
  | _ => none

/-- The value under the key, if it is an object. -/
def object? (o : JsonObject) (key : Str) : Option JsonObject := (o.get? key).bind ofValue?

end JsonObject

theorem wellFormed_of_mem {xs : List Value} (h : (Value.list xs).WellFormed) {x : Value}
    (hx : x ∈ xs) : x.WellFormed := (Value.all_list _).mp h x hx

/-- `isinstance(v, list)`. -/
def jsonItems? : JsonValue → Option (List JsonValue)
  | ⟨.list xs, h⟩ => some (xs.attach.map fun x => ⟨x.1, wellFormed_of_mem h x.2⟩)
  | _ => none

namespace Service

/-! ## The request -/

structure IngestRequest where
  authorization : Option Str
  /-- `X-Request-ID`. -/
  requestId : Option Str
  body : JsonObject

/-- What the host answers while it handles a request. -/
structure Surroundings where
  clock : Supply Timestamp
  idGenerator : Supply Str
  receivedAt : DateTime
  /-- `uuid4().hex`. -/
  requestUuid : Str

structure ServiceApp where
  journalPath : Str
  databasePath : Str
  authenticator : StaticTokenAuthenticator
  serviceInstanceId : Str := lit "local_service"

/-- The `principal` dependency. -/
def ServiceApp.principal (app : ServiceApp) (authorization : Option Str) :
    Except ServiceFailure ServicePrincipal :=
  app.authenticator.authenticate (bearerToken authorization)

def badRequest {α : Type} (message : String) : Except ServiceFailure α :=
  .error (.raised (.valueError message))

def objectBodyField (body : JsonObject) (field : String) : Except ServiceFailure JsonObject :=
  match body.object? (lit field) with
  | some o => .ok o
  | none => badRequest ("request body must include " ++ field ++ " object")

/-- The records of the body, if they are a list. -/
def recordsOf (body : JsonObject) : Option (List JsonValue) :=
  (body.get? (lit "records")).bind jsonItems?

/-! ## What a client may not say -/

def holdsKey (o : JsonObject) (key : String) : Bool := (Obj.get? o.items (lit key)).isSome

/-- A record that states who ingested it. -/
def suppliesIngestedBy (record : JsonValue) : Bool :=
  match JsonObject.ofValue? record with
  | none => false
  | some o =>
    holdsKey o "ingested_by"
      || (o.object? (lit "payload")).any fun payload => holdsKey payload "ingested_by"

def rejectClientIngestedBy (body : JsonObject) : Except ServiceFailure Unit :=
  if holdsKey body "ingested_by" || ((recordsOf body).getD []).any suppliesIngestedBy then
    badRequest "ingested_by is server-controlled and must not be supplied"
  else .ok ()

/-- `_classification_is_trusted` of the `classification` of an object. -/
def classificationIsTrusted (o : JsonObject) : Bool :=
  match o.object? (lit "classification") with
  | none => false
  | some classification =>
    match Obj.get? classification.items (lit "trust") with
    | some (.str s) => s == TrustLevel.trusted.text
    | _ => false

def rejectUnprivilegedTrustedClassification (body : JsonObject) (principal : ServicePrincipal) :
    Except ServiceFailure Unit :=
  if principal.hasCapability .adminConfigure then .ok ()
  else if classificationIsTrusted body
      || ((recordsOf body).getD []).any fun record =>
        (JsonObject.ofValue? record).any classificationIsTrusted then
    .error (.auth (lit "admin role required to assert trusted evidence"))
  else .ok ()

/-! ## What the server says -/

/-- `_ingested_by`. -/
def ingestedBy (app : ServiceApp) (principal : ServicePrincipal) (requestId : Option Str)
    (host : Surroundings) : JsonObject :=
  let generated := lit "req_" ++ host.requestUuid
  .ofFields
    [(lit "schema_version", jsonText INGESTION_PROVENANCE_VERSION),
     (lit "authenticated_principal", jsonText principal.principalId),
     (lit "authenticated_roles", jsonList
        ((ServiceRole.sorted.filter (· ∈ principal.roles)).map fun role => jsonText role.text)),
     (lit "authentication_method", jsonText (lit "bearer")),
     (lit "credential_identifier", jsonText (lit "principal:" ++ principal.principalId)),
     (lit "request_id", jsonText
        (match requestId with
         | none | some [] => generated
         | some id => id)),
     (lit "received_at", jsonText host.receivedAt.isoZ),
     (lit "service_instance_id", jsonText app.serviceInstanceId), (lit "legacy", jsonBool false)]

/-! ## Models of the body -/

section Read

variable (P : Platform)

/-- A `str` field without constraints. -/
def readString (v : Value) : Option Str :=
  match v with
  | .str s => some s
  | _ => none

/-- A `str` with `min_length=0` and default `""`. -/
def readSortKey (v : Option Value) : Option Str :=
  match v with
  | none => some []
  | some (.str s) => if P.strOk s then some s else none
  | some _ => none

/-- A model or `None`, with default `None`. -/
def readOptional {α : Type} (read : Value → Option α) (v : Option Value) : Option (Option α) :=
  match v with
  | none | some .null => some none
  | some v => (read v).map some

def evidenceRecordFields : List Str :=
  [lit "idempotency_key", lit "event_type", lit "payload", lit "source_kind", lit "sort_key",
   lit "source", lit "principal", lit "classification"]

def sourceKinds : List EvidenceSourceKind :=
  [.localFunction, .file, .http, .mcp, .externalJson, .fixture, .unknown]

variable (acceptsPayload : Obj → Bool)

/-- `EvidenceRecord.model_validate`. Whether the payload is a `JsonObject` is pydantic's answer. -/
def readEvidenceRecord (o : JsonObject) : Option EvidenceRecord := do
  let fields ← readFields evidenceRecordFields (.dict o.items)
  let idempotencyKey ← (fields.get? (lit "idempotency_key")).bind (readText P)
  let eventType ← (fields.get? (lit "event_type")).bind readString
  let payload ← o.object? (lit "payload")
  let sourceKind ← readEnumOr .unknown sourceKinds EvidenceSourceKind.text
    (fields.get? (lit "source_kind"))
  let sortKey ← readSortKey P (fields.get? (lit "sort_key"))
  let source ← readOptional (readSource P) (fields.get? (lit "source"))
  let principal ← readOptional (readPrincipal P) (fields.get? (lit "principal"))
  let classification ← readOptional readClassification (fields.get? (lit "classification"))
  if acceptsPayload payload.items then
    some
      { idempotencyKey, eventType, payload := payload.items, sourceKind, sortKey, source, principal
        classification, wellFormed := payload.wellFormed }
  else none

def checked {α : Type} (fields : Option α) : Except ServiceFailure α :=
  (validated fields).mapError .raised

/-- A model at a field of the body, when there is an object. -/
def modelOr {α : Type} (read : Value → Option α) (default : Option α) (field : Option JsonObject) :
    Except ServiceFailure α :=
  match field with
  | some o => checked (read (.dict o.items))
  | none => checked default

/-- `_normalizer_from_request`. -/
def normalizerFromRequest (body : JsonObject) (principal : ServicePrincipal) (host : Surroundings) :
    Except ServiceFailure EvidenceNormalizer := do
  let correlationData ← objectBodyField body "correlation"
  let correlation ← checked (readCorrelation P (.dict correlationData.items))
  let source ← modelOr (readSource P)
    (some ⟨⟨lit "service_api", by decide⟩, ⟨lit "local_service", by decide⟩,
      ⟨lit "1.0.0", by decide⟩⟩) (body.object? (lit "source"))
  let principal ← modelOr (readPrincipal P)
    ((readText P (.str principal.principalId)).map fun id => ⟨id, .service, none, none, none⟩)
    (body.object? (lit "principal"))
  let classification ← modelOr readClassification (some ⟨.internal, .unknown⟩)
    (body.object? (lit "classification"))
  .ok
    { correlation, source, principal, classification, clock := host.clock
      idGenerator := host.idGenerator, initialSequence := 0, sequence := 0, rootEventId := none
      lastEventId := none }

/-- One turn of the loop over the records. -/
def recordFromRequest (provenance : JsonObject) (record : JsonValue) :
    Except ServiceFailure EvidenceRecord :=
  match JsonObject.ofValue? record with
  | none => badRequest "records must contain objects"
  | some o =>
    match o.object? (lit "payload") with
    | none => badRequest "record payload must be an object"
    | some payload =>
      checked (readEvidenceRecord P acceptsPayload
        (o.set (lit "payload") (payload.set (lit "ingested_by") provenance.value).value))

/-- `_evidence_records_from_request`. -/
def evidenceRecordsFromRequest (body provenance : JsonObject) :
    Except ServiceFailure (List EvidenceRecord) :=
  match recordsOf body with
  | none => badRequest "request body must include records array"
  | some records => records.mapM (recordFromRequest P acceptsPayload provenance)

/-! ## The import -/

/-- The handler up to the import. -/
def prepareIngest (app : ServiceApp) (principal : ServicePrincipal) (request : IngestRequest)
    (host : Surroundings) : Except ServiceFailure (EvidenceNormalizer × List EvidenceRecord) := do
  requireCapability principal .eventsWrite
  requireCapability principal .projectionsRebuild
  rejectClientIngestedBy request.body
  rejectUnprivilegedTrustedClassification request.body principal
  let provenance := ingestedBy app principal request.requestId host
  let normalizer ← normalizerFromRequest P request.body principal host
  let records ← evidenceRecordsFromRequest P acceptsPayload request.body provenance
  .ok (normalizer, records)

structure BatchImportResult where
  outcomes : List IngestOutcome

namespace BatchImportResult

def count (r : BatchImportResult) (status : IngestOutcomeStatus) : Nat :=
  r.outcomes.countP fun outcome => outcome.status = status

def importedCount (r : BatchImportResult) : Nat := r.count .imported

def duplicateCount (r : BatchImportResult) : Nat := r.count .duplicate

def conflictCount (r : BatchImportResult) : Nat := r.count .conflict

def failedCount (r : BatchImportResult) : Nat := r.count .failed

def ok (r : BatchImportResult) : Bool := r.failedCount == 0 && r.conflictCount == 0

end BatchImportResult

/-- The import of a request, which holds the journal lock: its result, and the journal after it. -/
def ingestRecords (app : ServiceApp) (principal : ServicePrincipal) (request : IngestRequest)
    (host : Surroundings) (content : Content) : Except ServiceFailure BatchImportResult × Content :=
  match prepareIngest P acceptsPayload app principal request host with
  | .error failure => (.error failure, content)
  | .ok (normalizer, records) =>
    let imported := importEvidenceBatchAtomically P (.default P) normalizer content records
    ((imported.1.mapError .raised).map BatchImportResult.mk, imported.2)

end Read

/-! ## Answers -/

/-- The `except` clauses of the handler. -/
def ingestFailureStatus : ServiceFailure → Nat
  | .auth _ => 403
  | .journalIntegrity => 503
  | .raised exc =>
    if exc.isJournalError then 503
    else if exc.isActionLineageError || exc.isValueError then 400
    else 500

def ingestStatusCode (result : BatchImportResult) : Nat :=
  if result.importedCount ≠ 0 ∧ result.ok = false then 207
  else if result.conflictCount ≠ 0 then 409
  else if result.failedCount ≠ 0 then 400
  else 200

inductive ProjectionReport
  | rebuilt
  | stale (exc : PyError)

/-- `_ingest_response_body`. -/
structure IngestResponseBody where
  ok : Bool
  importedCount : Nat
  duplicateCount : Nat
  conflictCount : Nat
  failedCount : Nat
  outcomes : List IngestOutcome
  journalCommitted : Bool
  projection : ProjectionReport

def ingestResponseBody (result : BatchImportResult) (projection : ProjectionReport) :
    IngestResponseBody where
  ok := match projection with
    | .rebuilt => result.ok
    | .stale _ => false
  importedCount := result.importedCount
  duplicateCount := result.duplicateCount
  conflictCount := result.conflictCount
  failedCount := result.failedCount
  outcomes := result.outcomes
  journalCommitted := decide (0 < result.importedCount)
  projection

end Service

end ActionLineage
