import ActionLineage.Projection.Binding
import ActionLineage.Projection.Postgres
import ActionLineage.Py.Dict
import ActionLineage.Py.Jsonb

/-!
# The state of a PostgreSQL projection

`rebuildPostgresProjection` fills the table and its metadata, and `verifyPostgresProjectionState`
compares them with the journal. The server is a parameter: a `TIMESTAMPTZ` column returns the instant
of its literal, a `JSONB` column what `Jsonb` says, and every other column what was stored. The text
of the returned document has to be the text of the journal's, so numbers that the server spells as
others do not verify (`postgres_verifies_iff`).
-/

namespace ActionLineage

open Py

def POSTGRES_PROJECTION_SCHEMA_VERSION : Nat := PROJECTION_SCHEMA_VERSION + 1

deriving instance DecidableEq for EventRow

deriving instance DecidableEq for PostgresParameters

structure PostgresServer extends Jsonb where
  /-- The instant of a `TIMESTAMPTZ` literal. -/
  timestamp : Str → Option DateTime
  timestamp_isoZ : ∀ d, timestamp d.isoZ = some d

/-- A row of the table, as a reader returns it. -/
structure PostgresRow where
  columns : PostgresParameters
  occurredAt : DateTime
  observedAt : DateTime
  eventJson : Value

structure PostgresDatabase where
  metadata : Dict Str Str
  rows : List PostgresRow

/-! ## Rebuilding -/

/-- `_safe_identifier`; `$` also matches before a line feed at the end. -/
def safeIdentifier (name : Str) : Except PyError Unit :=
  let letter (c : CodePoint) : Bool :=
    (65 ≤ c.val && c.val ≤ 90) || (97 ≤ c.val && c.val ≤ 122) || c == cp '_'
  let refused : PyError := .projectionError "unsupported PostgreSQL identifier"
  match name with
  | [] => .error refused
  | c :: rest =>
    let tail := rest.dropWhile fun c => letter c || isDigit c
    require (letter c && (tail == [] || tail == [cp '\n'])) refused

/-- What every exception of the executor is turned into. -/
def postgresRebuildFailed : PyError := .projectionError "postgres projection rebuild failed"

/-- The handler around the statements. -/
def postgresRebuildFailure : PyError → PyError
  | .projectionError message => .projectionError message
  | _ => postgresRebuildFailed

section Postgres

variable (P : Platform) (server : PostgresServer)

/-- What the table holds after an `INSERT` of the parameters. -/
def storedRow (params : PostgresParameters) : Except PyError PostgresRow :=
  match server.timestamp params.occurredAt, server.timestamp params.observedAt,
    loadsText (.plain P.recursionLimit) params.eventJson with
  | some occurredAt, some observedAt, .ok document =>
    .ok { columns := params, occurredAt, observedAt, eventJson := server.returned document }
  | _, _, _ => .error postgresRebuildFailed

/-- Event ids and record numbers are unique. -/
def insertPostgresRow (rows : List PostgresRow) (row : PostgresRow) :
    Except PyError (List PostgresRow) :=
  if rows.any fun r =>
      r.columns.eventId == row.columns.eventId
        || r.columns.journalRecordNumber == row.columns.journalRecordNumber then
    .error postgresRebuildFailed
  else .ok (rows ++ [row])

/-- The loop over the verified events. -/
def indexPostgresEvents (rows : List PostgresRow) :
    Nat → List EventEnvelope → Except PyError (List PostgresRow)
  | _, [] => .ok rows
  | recordNumber, e :: es => do
    let params ← eventProjectionParameters P e recordNumber
    let rows ← insertPostgresRow rows (← storedRow P server params)
    indexPostgresEvents rows (recordNumber + 1) es

/-- The upsert of the metadata. -/
def metadataWrites (journalPath : Text) (identity : Str) (snapshot : VerifiedJournalSnapshot) :
    List (Dict.Write Str Str) :=
  [.set (lit "schema_version") (natText POSTGRES_PROJECTION_SCHEMA_VERSION),
   .set (lit "source_journal_path") journalPath.val,
   .set (lit "source_journal_identity") identity,
   .set (lit "source_journal_identity_version") JOURNAL_SOURCE_IDENTITY_VERSION,
   .set (lit "source_journal_sha256") (snapshot.journalSha256.getD []),
   .set (lit "records_indexed") (natText snapshot.events.length),
   .set (lit "last_event_hash") (snapshot.terminalHash.elim [] Subtype.val)]

/-- The statements of the transaction. -/
def rebuildPostgresTables (db : PostgresDatabase) (journalPath : Text)
    (snapshot : VerifiedJournalSnapshot) : Except PyError PostgresDatabase := do
  let rows ← indexPostgresEvents P server [] 1 snapshot.events
  require (decide (snapshot.events.length = snapshot.recordCount))
    (.projectionError "indexed record count does not match verified journal snapshot")
  let identity ← journalSourceIdentity P snapshot
  .ok { rows, metadata := db.metadata.writeAll (metadataWrites journalPath identity snapshot) }

/-- The text of a path is not empty. -/
def rebuildPostgresProjection (db : PostgresDatabase) (journalPath : Text) (tableName : Str)
    (content : Content) : Except PyError PostgresDatabase := do
  safeIdentifier tableName
  let snapshot ← verifiedJournalSnapshot P content none .null
  require snapshot.ok
    (.projectionError "cannot rebuild projection from a journal that fails verification")
  (rebuildPostgresTables P server db journalPath snapshot).mapError postgresRebuildFailure

/-! ## Verifying -/

structure VerifiedPostgresProjectionSnapshot where
  tableName : Str
  journalSnapshot : VerifiedJournalSnapshot
  recordsIndexed : Nat
  lastEventHash : Option Str
  sourceJournalPath : Str
  sourceJournalIdentity : Str
  sourceJournalSha256 : Option Str

/-- `_postgres_metadata_int`. -/
def postgresMetadataInt (metadata : Dict Str Str) (key : String) : Except PyError Nat :=
  match metadata.get? (lit key) with
  | none => .error (.valueError ("postgres projection metadata is missing " ++ key))
  | some value =>
    match intOfText P isRegexSpace value with
    | none =>
      .error (.valueError ("postgres projection metadata " ++ key ++ " is not an integer"))
    | some parsed =>
      if parsed < 0 then
        .error (.valueError ("postgres projection metadata " ++ key ++ " cannot be negative"))
      else .ok parsed.toNat

/-- A value that has to be there. -/
def postgresMetadataText (metadata : Dict Str Str) (key : String) : Except PyError Str :=
  (metadata.get? (lit key)).elim
    (.error (.valueError ("postgres projection metadata is missing " ++ key))) .ok

/-- `value or None`. -/
def textOrNone (s : Str) : Option Str := if s = [] then none else some s

/-- `_postgres_metadata_matches_verified_prefix`. -/
def postgresMetadataMatchesVerifiedPrefix (snapshot : VerifiedJournalSnapshot)
    (recordsIndexed : Nat) (lastEventHash : Option Str) : Bool :=
  let expectedLastHash : Option Text :=
    if recordsIndexed = 0 then none
    else snapshot.events[recordsIndexed - 1]?.bind (·.integrity.eventHash)
  decide (recordsIndexed ≤ snapshot.recordCount)
    && lastEventHash == expectedLastHash.map Subtype.val

/-- `_verify_postgres_metadata`. -/
def verifyPostgresMetadata (metadata : Dict Str Str) (snapshot : VerifiedJournalSnapshot) :
    Except PyError (Nat × Option Str) := do
  let schemaVersion ← postgresMetadataInt P metadata "schema_version"
  require (schemaVersion == POSTGRES_PROJECTION_SCHEMA_VERSION)
    (.projectionStateError .projectionRebuildRequired
      "postgres projection schema version is unsupported; rebuild required")
  let sourceJournalPath ← postgresMetadataText metadata "source_journal_path"
  require (sourceJournalPath != [])
    (.valueError "postgres projection metadata is missing source_journal_path")
  let recordsIndexed ← postgresMetadataInt P metadata "records_indexed"
  let lastEventHash := textOrNone (← postgresMetadataText metadata "last_event_hash")
  let expectedIdentity ← journalSourceIdentity P snapshot
  let storedIdentity ← postgresMetadataText metadata "source_journal_identity"
  require (storedIdentity != [])
    (.valueError "postgres projection metadata is missing source_journal_identity")
  require (!(lit "local-file:").isPrefixOf storedIdentity)
    (.projectionStateError .projectionRebuildRequired
      "postgres projection uses legacy path-based source journal identity; rebuild required")
  let storedIdentityVersion ← postgresMetadataText metadata "source_journal_identity_version"
  require (storedIdentityVersion == JOURNAL_SOURCE_IDENTITY_VERSION)
    (.projectionStateError .projectionRebuildRequired
      "postgres projection source journal identity version is unsupported; rebuild required")
  if storedIdentity ≠ expectedIdentity then
    if postgresMetadataMatchesVerifiedPrefix snapshot recordsIndexed lastEventHash then
      .error (.projectionStateError .projectionStale
        "postgres projection matches a verified prefix of the source journal; rebuild required")
    else
      .error (.projectionStateError .projectionMismatch
        "postgres projection source journal identity does not match the verified journal")
  else
    let storedJournalSha256 ← postgresMetadataText metadata "source_journal_sha256"
    require (storedJournalSha256 == snapshot.journalSha256.getD [])
      (.projectionStateError .projectionMismatch
        "postgres projection source journal byte digest does not match the verified journal")
    require (recordsIndexed == snapshot.recordCount
        && lastEventHash == snapshot.terminalHash.map Subtype.val)
      (.projectionStateError
        (if recordsIndexed ≤ snapshot.recordCount then .projectionStale else .projectionMismatch)
        "postgres projection metadata does not match the verified journal")
    .ok (recordsIndexed, lastEventHash)

/-- The text of a document with its keys in order. -/
def documentText (document : Obj) : Except PyError Value := do
  .ok (.str (← decodeUtf8 (← deterministicJsonBytes (.dict document))))

/-- `_canonical_event_json_text`. -/
def canonicalEventJsonText (value : Value) : Except PyError Value :=
  match value with
  | .str s =>
    match loadsText (.plain P.recursionLimit) s with
    | .ok (.dict document) => documentText document
    | .ok _ | .error .malformed => .ok value
    | .error exc => .error (.ofLoad exc)
  | .dict document => documentText document
  | _ => .ok value

/-- The comparison of one row, all columns at once. -/
def verifyPostgresRow (row : PostgresRow) (e : EventEnvelope) (recordNumber : Nat) :
    Except PyError Unit := do
  let eventJson ← canonicalEventJsonText P row.eventJson
  let expected ← eventProjectionParameters P e recordNumber
  let actual : PostgresParameters :=
    { row.columns with
      occurredAt := row.occurredAt.isoZ
      observedAt := row.observedAt.isoZ
      eventJson := expected.eventJson }
  require (decide (actual = expected) && pyEq eventJson (.str expected.eventJson))
    (.projectionStateError .projectionMismatch
      "postgres projection row content does not match the verified journal")

def verifyPostgresRows : Nat → List EventEnvelope → List PostgresRow → Except PyError Unit
  | recordNumber, e :: es, row :: rows => do
    verifyPostgresRow P row e recordNumber
    verifyPostgresRows (recordNumber + 1) es rows
  | _, _, _ => .ok ()

/-- The rows in the order of their record numbers. -/
def fetchPostgresProjectedRows (db : PostgresDatabase) : List PostgresRow :=
  db.rows.insertionSort fun a b => a.columns.journalRecordNumber ≤ b.columns.journalRecordNumber

/-- `_verify_postgres_projected_rows`. -/
def verifyPostgresProjectedRows (rows : List PostgresRow) (snapshot : VerifiedJournalSnapshot) :
    Except PyError Unit :=
  if rows.length ≠ snapshot.recordCount then
    .error (.projectionStateError
      (if rows.length < snapshot.recordCount then .projectionStale else .projectionMismatch)
      "postgres projection row count does not match the verified journal")
  else verifyPostgresRows P 1 snapshot.events rows

/-- The `except` clauses around the verification. -/
def postgresStateFailure (exc : PyError) : PyError :=
  match exc with
  | .projectionStateError _ _ => exc
  | .typeError _ =>
    .projectionStateError .projectionRebuildRequired
      "postgres projection metadata or rows are incomplete or invalid"
  | _ =>
    if exc.isValueError then
      .projectionStateError .projectionRebuildRequired
        "postgres projection metadata or rows are incomplete or invalid"
    else
      .projectionStateError .projectionUnavailable "postgres projection could not be verified"

def verifyPostgresProjectionState (db : PostgresDatabase) (tableName : Str) (content : Content) :
    Except PyError VerifiedPostgresProjectionSnapshot := do
  safeIdentifier tableName
  let snapshot ← verifiedJournalSnapshot P content none .null
  require snapshot.ok
    (.projectionStateError .journalInvalid "source journal verification failed")
  (do
    let verified ← verifyPostgresMetadata P db.metadata snapshot
    verifyPostgresProjectedRows P (fetchPostgresProjectedRows db) snapshot
    .ok
      { tableName, journalSnapshot := snapshot, recordsIndexed := verified.1
        lastEventHash := verified.2
        sourceJournalPath := (db.metadata.get? (lit "source_journal_path")).getD []
        sourceJournalIdentity := (db.metadata.get? (lit "source_journal_identity")).getD []
        sourceJournalSha256 :=
          (db.metadata.get? (lit "source_journal_sha256")).bind textOrNone } :
    Except PyError VerifiedPostgresProjectionSnapshot).mapError postgresStateFailure

end Postgres

end ActionLineage
