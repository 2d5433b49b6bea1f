import ActionLineage.Detection.Predicates
import ActionLineage.Projection.Sqlite

/-!
# The state of a SQLite projection

`rebuildProjectionInto` fills the two tables and binds them to the journal through the metadata.
`verifyProjectionState` decides whether a database, whatever it holds, is the projection of a
journal.

A cell has one of SQLite's storage classes, whatever the type of its column; texts are the ones the
driver can decode. The tables have the columns of the schema.
-/

namespace ActionLineage

open Py

def PROJECTION_SCHEMA_VERSION : Nat := 2

def PROJECTION_IDENTITY_VERSION : Str := lit "actionlineage.dev/sqlite-projection-identity-v1"

def JOURNAL_SOURCE_IDENTITY_VERSION : Str := lit "actionlineage.dev/journal-source-identity-v1"

/-! ## Cells and rows -/

inductive SqlValue
  | null
  | integer (i : Int)
  | real (x : Binary64)
  | text (s : Str)
  | blob (b : Bytes)
deriving DecidableEq

namespace SqlValue

/-- What the driver returns for a cell. -/
def toValue : SqlValue → Value
  | null => .null
  | integer i => .int i
  | real x => .float x
  | text s => .str s
  | blob b => .bytes b

/-- SQL's `typeof`. -/
def typeName : SqlValue → Str
  | null => lit "null"
  | integer _ => lit "integer"
  | real _ => lit "real"
  | text _ => lit "text"
  | blob _ => lit "blob"

def truthy (c : SqlValue) : Bool := c.toValue.truthy

/-- The storage classes in the order SQLite sorts them. -/
def storageRank : SqlValue → Nat
  | null => 0
  | integer _ => 1
  | real _ => 1
  | text _ => 2
  | blob _ => 3

/-- `ORDER BY` on one column. -/
def le (a b : SqlValue) : Bool :=
  match a, b with
  | integer i, integer j => i ≤ j
  | text s, text t => decide (utf8Bytes s ≤ utf8Bytes t)
  | blob s, blob t => decide (s ≤ t)
  | real (.inf true), real _ | real (.inf true), integer _ => true
  | real _, real (.inf false) | integer _, real (.inf false) => true
  | real _, real _ | real _, integer _ | integer _, real _ =>
    match a.toValue.exactUnits, b.toValue.exactUnits with
    | some x, some y => x ≤ y
    | _, _ => false
  | _, _ => decide (a.storageRank ≤ b.storageRank)

def ofOption {α : Type} (cell : α → SqlValue) : Option α → SqlValue
  | none => null
  | some a => cell a

end SqlValue

/-- A row of the table `events`: its cells in the order of `PROJECTED_EVENT_COLUMNS`. -/
structure SqlRow where
  cells : List SqlValue
  length_eq : cells.length = 19

def SqlRow.journalRecordNumber (r : SqlRow) : SqlValue :=
  r.cells.get ⟨17, by rw [r.length_eq]; decide⟩

def textCell (t : Text) : SqlValue := .text t.val

/-- The row an `INSERT` stores. -/
def EventRow.stored (r : EventRow) : SqlRow where
  cells :=
    [.text r.eventId, .text r.specVersion, .text r.eventType, .text r.occurredAt,
     .text r.observedAt, .text r.traceId, .text r.runId, .ofOption textCell r.spanId,
     .ofOption textCell r.sessionId, .text r.rootEventId, .ofOption textCell r.parentEventId,
     .integer r.sequence, .ofOption textCell r.eventHash, .ofOption textCell r.previousEventHash,
     .ofOption .text r.verificationStatus, .ofOption .text r.evidenceSubjectEventId,
     .ofOption .text r.evidenceEventId, .integer r.journalRecordNumber, .text r.eventJson]
  length_eq := rfl

structure ProjectionDatabase where
  userVersion : Nat
  metadata : List (SqlValue × SqlValue)
  events : List SqlRow

/-- A database file without tables. -/
def ProjectionDatabase.empty : ProjectionDatabase := ⟨0, [], []⟩

/-! ## Metadata -/

/-- `INSERT … ON CONFLICT(key) DO UPDATE`. -/
def setMetadataKey (metadata : List (SqlValue × SqlValue)) (key value : Str) :
    List (SqlValue × SqlValue) :=
  if metadata.any fun p => p.1 == .text key then
    metadata.map fun p => if p.1 = .text key then (p.1, .text value) else p
  else metadata ++ [(.text key, .text value)]

def setMetadata (metadata : List (SqlValue × SqlValue)) (values : List (Str × Str)) :
    List (SqlValue × SqlValue) :=
  values.foldl (fun metadata p => setMetadataKey metadata p.1 p.2) metadata

/-- `metadata.get(key)`: of rows with one key, the last. -/
def metadataGet (metadata : List (SqlValue × SqlValue)) (key : String) : SqlValue :=
  ((metadata.reverse.find? fun p => p.1 == .text (lit key)).map Prod.snd).getD .null

/-- Whether a minus stands first, and the text after the sign. -/
def splitSign : Str → Bool × Str
  | [] => (false, [])
  | c :: rest =>
    if c = cp '-' then (true, rest) else if c = cp '+' then (false, rest) else (false, c :: rest)

/-- The value of a text that is an integer literal: white space around it, a sign, and decimal
digits of any script with single underscores between them. -/
def intOfText (P : Platform) (isSpace : CodePoint → Bool) (s : Str) : Option Int :=
  let trimmed := ((s.dropWhile isSpace).reverse.dropWhile isSpace).reverse
  let signed := splitSign trimmed
  let groups := signed.2.splitOn (cp '_')
  let digits := groups.flatten
  if groups.all (isDecimal P) && digits.length ≤ maxIntDigits then
    let magnitude := digits.foldl (fun n c => 10 * n + (decimalValue P c).getD 0) 0
    some (if signed.1 then -(magnitude : Int) else magnitude)
  else none

/-- The white space `int` takes around bytes. -/
def isByteSpace (c : CodePoint) : Bool := (9 ≤ c.val && c.val ≤ 13) || c.val == 32

/-- A finite float cut to an integer. -/
def truncated (neg : Bool) (bits : Fin infBits) : Int :=
  let magnitude : Nat := Binary64.units bits.val / 2 ^ 1074
  if neg then -(magnitude : Int) else magnitude

section State

variable (P : Platform)

/-- `_metadata_int`; every text it refuses is one `ValueError`. -/
def metadataInt (metadata : List (SqlValue × SqlValue)) (key : String) : Except PyError Nat := do
  let notInteger : PyError := .valueError ("projection metadata " ++ key ++ " is not an integer")
  let parsed : Int ←
    match metadataGet metadata key with
    | .null => .error (.valueError ("projection metadata is missing " ++ key))
    | .integer i => .ok i
    | .real (.finite neg bits) => .ok (truncated neg bits)
    | .real (.inf _) => .error (.overflowError "cannot convert float infinity to integer")
    | .real .nan => .error notInteger
    | .text s => (intOfText P isRegexSpace s).elim (.error notInteger) .ok
    | .blob b =>
      if b.all fun x => x.val < 128 then
        (intOfText P isByteSpace (b.map fun x => ⟨x.val, byte_lt x⟩)).elim (.error notInteger) .ok
      else .error notInteger
  if parsed < 0 then .error (.valueError ("projection metadata " ++ key ++ " cannot be negative"))
  else .ok parsed.toNat

/-- `_metadata_hash`: an empty value is `None`. -/
def metadataHash (metadata : List (SqlValue × SqlValue)) (key : String) :
    Except PyError SqlValue :=
  match metadataGet metadata key with
  | .null => .error (.valueError ("projection metadata is missing " ++ key))
  | cell => .ok (if cell.truthy then cell else .null)

/-- A text, for a call only `str` takes; the `AttributeError` of a number is a `typeError` here. -/
def requireText (cell : SqlValue) : Except PyError Str :=
  match cell with
  | .text s => .ok s
  | _ => .error (.typeError "a str is required")

/-! ## Identities -/

/-- `f"{version}:sha256:{digest}"` of a JSON preimage. -/
def namespacedDigest (version : Str) (preimage : Obj) : Except PyError Str := do
  .ok (version ++ lit ":sha256:" ++ P.sha256Hex (← deterministicJsonBytes (.dict preimage)))

def journalSourceIdentity (snapshot : VerifiedJournalSnapshot) : Except PyError Str := do
  require snapshot.ok
    (.valueError "cannot compute source identity for an invalid journal snapshot")
  namespacedDigest P JOURNAL_SOURCE_IDENTITY_VERSION
    [(lit "journal_sha256", snapshot.journalSha256.elim .null .str),
     (lit "record_count", .int snapshot.recordCount),
     (lit "terminal_hash", optText snapshot.terminalHash),
     (lit "version", .str JOURNAL_SOURCE_IDENTITY_VERSION)]

def projectionIdentity (sourceJournalIdentity sourceJournalSha256 : Str) (recordsIndexed : Nat)
    (lastEventHash : Value) (schemaVersion : Nat) : Except PyError Str :=
  namespacedDigest P PROJECTION_IDENTITY_VERSION
    [(lit "version", .str PROJECTION_IDENTITY_VERSION), (lit "engine", .str (lit "sqlite")),
     (lit "schema_version", .int schemaVersion),
     (lit "source_journal_identity_version", .str JOURNAL_SOURCE_IDENTITY_VERSION),
     (lit "source_journal_identity", .str sourceJournalIdentity),
     (lit "source_journal_sha256", .str sourceJournalSha256),
     (lit "records_indexed", .int recordsIndexed), (lit "last_event_hash", lastEventHash)]

/-! ## Rebuilding -/

/-- `Path(path).resolve(strict=False)`, as text. A resolved path is not empty and resolves to
itself. -/
structure PathResolver where
  resolve : Str → Except PyError Str
  resolve_resolved : ∀ p q, resolve p = .ok q → q ≠ [] ∧ resolve q = .ok q

variable (R : PathResolver)

/-- Creating the tables keeps those that exist; version 1 gets its three columns added. -/
def ensureSchema (db : ProjectionDatabase) : Except PyError ProjectionDatabase :=
  if db.userVersion < PROJECTION_SCHEMA_VERSION then
    .ok { db with
      userVersion := PROJECTION_SCHEMA_VERSION
      metadata := setMetadata db.metadata [(lit "schema_version", lit "2")] }
  else if db.userVersion = PROJECTION_SCHEMA_VERSION then .ok db
  else .error (.projectionSchemaError "unsupported projection schema version")

def rebuildProjectionInto (db : ProjectionDatabase) (journalPath : Str) (content : Content) :
    Except PyError ProjectionDatabase := do
  let journalPath ← R.resolve journalPath
  let snapshot ← verifiedJournalSnapshot P content none .null
  require snapshot.ok
    (.projectionError "cannot rebuild projection from a journal that fails verification")
  let db ← ensureSchema db
  let rows ← indexEvents P [] 1 snapshot.events
  let indexedCount := snapshot.events.length
  require (decide (indexedCount = snapshot.recordCount))
    (.projectionError "indexed record count does not match verified journal snapshot")
  let sourceJournalIdentity ← journalSourceIdentity P snapshot
  let sourceJournalSha256 := snapshot.journalSha256.getD []
  let identity ← projectionIdentity P sourceJournalIdentity sourceJournalSha256 indexedCount
    (optText snapshot.terminalHash) PROJECTION_SCHEMA_VERSION
  -- binding the path encodes it
  let _ ← (utf8Encode journalPath).elim (.error .unicodeEncodeError) .ok
  .ok { db with
    events := rows.map EventRow.stored
    metadata := setMetadata db.metadata
      [(lit "schema_version", lit "2"), (lit "source_journal_path", journalPath),
       (lit "source_journal_identity", sourceJournalIdentity),
       (lit "source_journal_identity_version", JOURNAL_SOURCE_IDENTITY_VERSION),
       (lit "source_journal_sha256", sourceJournalSha256), (lit "projection_identity", identity),
       (lit "records_indexed", natText indexedCount),
       (lit "last_event_hash", snapshot.terminalHash.elim [] Subtype.val)] }

/-! ## Verifying -/

structure VerifiedProjectionSnapshot where
  journalSnapshot : VerifiedJournalSnapshot
  recordsIndexed : Nat
  lastEventHash : SqlValue
  sourceJournalPath : Str
  sourceJournalIdentity : Str
  sourceJournalSha256 : Option Str
  projectionIdentity : SqlValue

def validateSchema (db : ProjectionDatabase) : Except PyError Unit :=
  if db.userVersion = 0 then
    .error (.projectionSchemaError "projection schema is missing; rebuild required")
  else
    require (db.userVersion == PROJECTION_SCHEMA_VERSION)
      (.projectionSchemaError "unsupported projection schema version")

/-- `_projection_source_path_hint`. -/
def projectionSourcePathHint (metadata : List (SqlValue × SqlValue)) : Except PyError Str := do
  let storedPath := metadataGet metadata "source_journal_path"
  require storedPath.truthy (.valueError "projection metadata is missing source_journal_path")
  R.resolve (← requireText storedPath)

/-- The rows in the order of their record numbers; rows without distinct numbers never verify, so
the order of equal ones does not matter. -/
def projectedRows (db : ProjectionDatabase) : List SqlRow :=
  db.events.insertionSort fun a b => a.journalRecordNumber.le b.journalRecordNumber

/-- Same values and same storage classes. -/
def rowMatches (actual expected : SqlRow) : Bool :=
  (actual.cells.zip expected.cells).all fun p =>
    pyEq p.1.toValue p.2.toValue && p.1.typeName == p.2.typeName

/-- The loop over the verified events. -/
def verifyRowContents : Nat → List EventEnvelope → List SqlRow → Except PyError Unit
  | recordNumber, event :: events, row :: rows => do
    let expected ← eventProjectionValues P event recordNumber
    require (rowMatches row expected.stored) (.projectionStateError .projectionMismatch
      "projection row content does not match the verified journal")
    verifyRowContents (recordNumber + 1) events rows
  | _, _, _ => .ok ()

/-- `_verify_projected_row_values`. -/
def verifyProjectedRowValues (rows : List SqlRow) (snapshot : VerifiedJournalSnapshot)
    (recordCount : Nat) : Except PyError Unit :=
  if rows.length ≠ recordCount then
    .error (.projectionStateError
      (if rows.length < recordCount then .projectionStale else .projectionMismatch)
      "projection row count does not match the verified journal")
  else verifyRowContents P 1 (snapshot.events.take recordCount) rows

def hashCell (h : Option Text) : SqlValue := .ofOption textCell h

/-- `_projection_matches_verified_journal_prefix`. -/
def projectionMatchesVerifiedJournalPrefix (db : ProjectionDatabase)
    (snapshot : VerifiedJournalSnapshot) (recordsIndexed : Nat) (lastEventHash : SqlValue) :
    Except PyError Bool :=
  let expectedLastHash : Option Text :=
    if recordsIndexed = 0 then none
    else snapshot.events[recordsIndexed - 1]?.bind (·.integrity.eventHash)
  if snapshot.recordCount < recordsIndexed then .ok false
  else if lastEventHash ≠ hashCell expectedLastHash then .ok false
  else if (projectedRows db).length ≠ recordsIndexed then .ok false
  else
    match verifyProjectedRowValues P (projectedRows db) snapshot recordsIndexed with
    | .ok () => .ok true
    | .error (.projectionStateError _ _) => .ok false
    | .error exc => .error exc

/-- `_verify_projection_identity`. -/
def verifyProjectionIdentity (storedProjectionIdentity : SqlValue)
    (sourceJournalIdentity sourceJournalSha256 : Str) (recordsIndexed : Nat)
    (lastEventHash : Value) : Except PyError Unit := do
  let stored ← requireText storedProjectionIdentity
  require (!(lit "sqlite-file:").isPrefixOf stored)
    (.projectionStateError .projectionRebuildRequired
      "projection uses legacy path-based projection identity; rebuild required")
  let expected ← projectionIdentity P sourceJournalIdentity sourceJournalSha256 recordsIndexed
    lastEventHash PROJECTION_SCHEMA_VERSION
  require (stored == expected) (.projectionStateError .projectionMismatch
    "projection identity metadata does not match verified projection contents")

/-- `_verify_projection_state_on_connection`. -/
def verifyProjectionStateOnConnection (db : ProjectionDatabase) (content : Content) :
    Except PyError VerifiedProjectionSnapshot := do
  validateSchema db
  let sourceJournalPath ← projectionSourcePathHint R db.metadata
  let storedProjectionIdentity := metadataGet db.metadata "projection_identity"
  require storedProjectionIdentity.truthy
    (.valueError "projection metadata is missing projection_identity")
  let snapshot ← verifiedJournalSnapshot P content none .null
  require snapshot.ok
    (.projectionStateError .journalInvalid "source journal verification failed")
  let recordsIndexed ← metadataInt P db.metadata "records_indexed"
  let lastEventHash ← metadataHash db.metadata "last_event_hash"
  let expectedIdentity ← journalSourceIdentity P snapshot
  let storedIdentityCell := metadataGet db.metadata "source_journal_identity"
  require storedIdentityCell.truthy
    (.valueError "projection metadata is missing source_journal_identity")
  let storedIdentity ← requireText storedIdentityCell
  require (!(lit "local-file:").isPrefixOf storedIdentity)
    (.projectionStateError .projectionRebuildRequired
      "projection uses legacy path-based source journal identity; rebuild required")
  let storedIdentityVersion := metadataGet db.metadata "source_journal_identity_version"
  require (storedIdentityVersion != .null)
    (.valueError "projection metadata is missing source_journal_identity_version")
  require (storedIdentityVersion == .text JOURNAL_SOURCE_IDENTITY_VERSION)
    (.projectionStateError .projectionRebuildRequired
      "projection source journal identity version is unsupported; rebuild required")
  if storedIdentity ≠ expectedIdentity then
    if ← projectionMatchesVerifiedJournalPrefix P db snapshot recordsIndexed lastEventHash then
      .error (.projectionStateError .projectionStale
        "projection matches a verified prefix of the source journal; rebuild required")
    else
      .error (.projectionStateError .projectionMismatch
        "projection source journal identity does not match the verified journal")
  else
    let storedJournalSha256 := metadataGet db.metadata "source_journal_sha256"
    let expectedJournalSha256 := snapshot.journalSha256.getD []
    require (storedJournalSha256 != .null)
      (.valueError "projection metadata is missing source_journal_sha256")
    require (storedJournalSha256 == .text expectedJournalSha256)
      (.projectionStateError .projectionMismatch
        "projection source journal byte digest does not match the verified journal")
    require (recordsIndexed == snapshot.recordCount
        && lastEventHash == hashCell snapshot.terminalHash)
      (.projectionStateError
        (if recordsIndexed ≤ snapshot.recordCount then .projectionStale else .projectionMismatch)
        "projection metadata does not match the verified journal")
    verifyProjectionIdentity P storedProjectionIdentity storedIdentity expectedJournalSha256
      recordsIndexed lastEventHash.toValue
    verifyProjectedRowValues P (projectedRows db) snapshot snapshot.recordCount
    .ok
      { journalSnapshot := snapshot, recordsIndexed, lastEventHash, sourceJournalPath
        sourceJournalIdentity := storedIdentity
        sourceJournalSha256 :=
          if expectedJournalSha256 = [] then none else some expectedJournalSha256
        projectionIdentity := storedProjectionIdentity }

/-- The `except` clauses around the verification. -/
def projectionStateFailure (exc : PyError) : PyError :=
  match exc with
  | .projectionStateError _ _ => exc
  | .sqliteError =>
    .projectionStateError .projectionUnavailable "sqlite projection could not be verified"
  | .projectionSchemaError _ =>
    .projectionStateError .projectionRebuildRequired
      "projection schema is unsupported or incomplete"
  | _ =>
    if exc.isValueError then
      .projectionStateError .projectionRebuildRequired
        "projection metadata is incomplete or invalid"
    else exc

/-- `_recheck_terminal_journal_state`: nothing else writes the journal in between. -/
def recheckTerminalJournalState (content : Content) (verification : VerifiedProjectionSnapshot) :
    Except PyError Unit := do
  let snapshot ← verifiedJournalSnapshot P content
    (some (.int verification.journalSnapshot.recordCount))
    (optText verification.journalSnapshot.terminalHash)
  let expectedMismatch := snapshot.verification.issues.all fun issue =>
    [VerificationCode.expectedRecordCountMismatch, .expectedLastHashMismatch].contains issue.code
  if snapshot.ok then .ok ()
  else if !snapshot.verification.issues.isEmpty && expectedMismatch then
    .error (.projectionStateError .projectionStale
      "source journal changed while the projection read was in progress")
  else
    .error (.projectionStateError .journalInvalid
      "source journal verification failed after projection read")

/-- `verify_projection_state`, on a database that may not exist. -/
def verifyProjectionState (database : Option ProjectionDatabase) (content : Content) :
    Except PyError VerifiedProjectionSnapshot :=
  match database with
  | none => .error (.projectionStateError .projectionMissing "projection database does not exist")
  | some db => do
    let verification ←
      (verifyProjectionStateOnConnection P R db content).mapError projectionStateFailure
    recheckTerminalJournalState P content verification
    .ok verification

end State

end ActionLineage
