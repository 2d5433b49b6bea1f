import ActionLineage.Projection.Reads
import ActionLineage.Projection.Rebuild
import ActionLineage.Service.Ingest

/-!
# The service and its workers — `service/api.py`

The handlers run in a pool of threads over one journal file and one database file. A handler uses
them a few times and lets go of them in between: an ingest imports under the journal lock, later
reads the journal for its rebuild, and later still writes the database; a read opens the database,
which it then sees as it was, reads the journal to verify it, and rechecks the journal at the end. A
worker is what a handler has in hand between two of these uses, and a run is any order of uses by
any workers.

What a read of the database raises by itself is not part of the model.
-/

namespace ActionLineage.Service

open Py

/-- What a handler has in hand. A read without a selector is a health check. -/
inductive Worker
  | idle
  /-- The batch is imported, and the projection is to be rebuilt. -/
  | imported (result : BatchImportResult)
  /-- The journal is read for the rebuild. -/
  | rebuilding (result : BatchImportResult) (journalPath : Str) (snapshot : VerifiedJournalSnapshot)
  /-- The read may begin. -/
  | opening (selector : Option Selector)
  /-- The transaction of the read is open and sees the database as it is now. -/
  | connected (selector : Option Selector) (database : ProjectionDatabase)
  /-- The rows are read, and the journal is to be rechecked. -/
  | reading (verification : VerifiedProjectionSnapshot) (events : Option (List TimelineEvent))

inductive HealthIssue
  | journalUnavailable
  | state (code : ProjectionStateCode)

inductive ServiceResponse
  /-- An exception or an `HTTPException` with the status. -/
  | refused (status : Nat) (failure : ServiceFailure)
  | ingested (status : Nat) (body : IngestResponseBody)
  | timeline (events : List TimelineEvent)
  /-- The event ids with their provenance labels. -/
  | events (listing : List (Text × Str))
  /-- `check_local_health`; a healthy service has no issues. -/
  | health (issues : List HealthIssue)

structure ServiceState where
  content : Content
  /-- The file may not exist. -/
  database : Option ProjectionDatabase
  workers : ℕ → Worker

def ServiceState.setWorker (s : ServiceState) (i : ℕ) (w : Worker) : ServiceState :=
  { s with workers := Function.update s.workers i w }

/-- One use of a file by worker `i`, or one answer from the journal alone. -/
inductive ServiceStep
  | beginIngest (i : ℕ) (request : IngestRequest) (host : Surroundings)
  | readJournal (i : ℕ)
  /-- `prepared` is what creating the private directory and file gives. -/
  | writeDatabase (i : ℕ) (prepared : Except PyError Unit) (fault : ℕ → Option PyError)
  | beginTimeline (i : ℕ) (authorization traceId runId : Option Str)
  | beginHealth (i : ℕ)
  | openDatabase (i : ℕ)
  | readRows (i : ℕ)
  | endRead (i : ℕ)
  | listEvents (authorization : Option Str)

/-- `isinstance(exc, ProjectionError)`. -/
def isProjectionError : PyError → Bool
  | .projectionError _ | .eventAlreadyIndexed _ | .projectionSchemaError _
  | .projectionStateError _ _ => true
  | _ => false

/-- The `ingestion_provenance` of an event. -/
def ingestionProvenance (e : EventEnvelope) : Str :=
  match Obj.get? e.payload.items (lit "ingested_by") with
  | some (.dict _) => lit "service_authenticated"
  | _ => lit "legacy_no_ingested_by"

/-- What a handler answers to an exception of a read: the refusal of a journal or a projection, or
the server's own failure. -/
def readFailure (unavailable : PyError → Bool) (exc : PyError) : ServiceResponse :=
  .refused (if unavailable exc then 503 else 500) (.raised exc)

/-- What a query answers to an exception of its read, and what a health check does. -/
def readRefused (query : Bool) (exc : PyError) : ServiceResponse :=
  if query then readFailure isProjectionError exc
  else
    match exc with
    | .projectionStateError code _ => .health [.state code]
    | _ => .refused 500 (.raised exc)

/-- The answer when the rebuild of an ingest raised. -/
def rebuildFailed (result : BatchImportResult) (exc : PyError) : ServiceResponse :=
  if isProjectionError exc then .ingested 503 (ingestResponseBody result (.stale exc))
  else .refused (ingestFailureStatus (.raised exc)) (.raised exc)

/-- The answer when nothing is left to do. -/
def ingestDone (result : BatchImportResult) : ServiceResponse :=
  .ingested (ingestStatusCode result) (ingestResponseBody result .rebuilt)

section Handlers

variable (P : Platform) (R : PathResolver) (acceptsPayload : Obj → Bool) (app : ServiceApp)

/-! ## `rebuild_projection` in two uses -/

/-- Up to the snapshot. -/
def rebuildSource (journalPath : Str) (content : Content) :
    Except PyError (Str × VerifiedJournalSnapshot) := do
  let journalPath ← R.resolve journalPath
  let snapshot ← verifiedJournalSnapshot P content none .null
  require snapshot.ok
    (.projectionError "cannot rebuild projection from a journal that fails verification")
  .ok (journalPath, snapshot)

/-- The rest, on the file as it is by then; preparing it creates it. -/
def rebuildDatabase (prepared : Except PyError Unit) (fault : ℕ → Option PyError)
    (journalPath : Str) (snapshot : VerifiedJournalSnapshot) (database : Option ProjectionDatabase) :
    Except PyError ℕ × Option ProjectionDatabase :=
  match prepared with
  | .error exc => (.error exc, database)
  | .ok () =>
    let run := connect fault (rebuildBlock P fault journalPath snapshot)
      { committed := database.getD .empty }
    (run.1.mapError rebuildFailure, some run.2.committed)

/-! ## `_verified_projection_reader` in three uses -/

/-- The check that the file exists. -/
def openProjection (database : Option ProjectionDatabase) : Except PyError ProjectionDatabase :=
  match database with
  | some db => .ok db
  | none => .error (.projectionStateError .projectionMissing "projection database does not exist")

/-- The transaction, with the query if there is one. -/
def readProjection (db : ProjectionDatabase) (content : Content) (selector : Option Selector) :
    Except PyError (VerifiedProjectionSnapshot × Option (List TimelineEvent)) :=
  match selector with
  | some selector =>
    (readTimeline P R db content selector).map fun read => (read.1, some read.2)
  | none =>
    ((verifyProjectionStateOnConnection P R db content).mapError projectionStateFailure).map
      fun verification => (verification, none)

/-! ## Steps -/

def beginIngest (s : ServiceState) (i : ℕ) (request : IngestRequest) (host : Surroundings) :
    Option ServiceResponse × ServiceState :=
  match app.principal request.authorization with
  | .error failure => (some (.refused 401 failure), s)
  | .ok principal =>
    match ingestRecords P acceptsPayload app principal request host s.content with
    -- records that were appended before the exception stay in the journal
    | (.error failure, content) =>
      (some (.refused (ingestFailureStatus failure) failure), { s with content })
    | (.ok result, content) =>
      if result.importedCount ≠ 0 ∨ result.duplicateCount ≠ 0 then
        (none, { s with content }.setWorker i (.imported result))
      else (some (ingestDone result), { s with content })

def readJournal (s : ServiceState) (i : ℕ) : Option ServiceResponse × ServiceState :=
  match s.workers i with
  | .imported result =>
    match rebuildSource P R app.journalPath s.content with
    | .ok (journalPath, snapshot) => (none, s.setWorker i (.rebuilding result journalPath snapshot))
    -- the import is not undone
    | .error exc => (some (rebuildFailed result exc), s.setWorker i .idle)
  | _ => (none, s)

def writeDatabase (s : ServiceState) (i : ℕ) (prepared : Except PyError Unit)
    (fault : ℕ → Option PyError) : Option ServiceResponse × ServiceState :=
  match s.workers i with
  | .rebuilding result journalPath snapshot =>
    match rebuildDatabase P prepared fault journalPath snapshot s.database with
    | (.ok _, database) => (some (ingestDone result), { s with database }.setWorker i .idle)
    | (.error exc, database) =>
      (some (rebuildFailed result exc), { s with database }.setWorker i .idle)
  | _ => (none, s)

def beginTimeline (s : ServiceState) (i : ℕ) (authorization traceId runId : Option Str) :
    Option ServiceResponse × ServiceState :=
  match app.principal authorization with
  | .error failure => (some (.refused 401 failure), s)
  | .ok principal =>
    match requireCapability principal .eventsRead with
    | .error failure => (some (.refused 403 failure), s)
    | .ok () =>
      match requireOneSelector traceId runId with
      | .error exc => (some (readFailure isProjectionError exc), s)
      | .ok selector => (none, s.setWorker i (.opening (some selector)))

/-- `check_local_health` up to the projection. -/
def beginHealth (s : ServiceState) (i : ℕ) : Option ServiceResponse × ServiceState :=
  match verifyJournal P s.content none .null with
  -- only a `JournalError` is caught
  | .error exc =>
    (some (if exc.isJournalError then .health [.journalUnavailable] else .refused 500 (.raised exc)), s)
  | .ok verification =>
    if verification.ok then (none, s.setWorker i (.opening none))
    else (some (.health [.state .journalInvalid]), s)

def openDatabase (s : ServiceState) (i : ℕ) : Option ServiceResponse × ServiceState :=
  match s.workers i with
  | .opening selector =>
    match openProjection s.database with
    | .ok db => (none, s.setWorker i (.connected selector db))
    | .error exc => (some (readRefused selector.isSome exc), s.setWorker i .idle)
  | _ => (none, s)

def readRows (s : ServiceState) (i : ℕ) : Option ServiceResponse × ServiceState :=
  match s.workers i with
  -- the transaction reads the database it opened, and the journal as it is by now
  | .connected selector db =>
    match readProjection P R db s.content selector with
    | .ok (verification, events) => (none, s.setWorker i (.reading verification events))
    | .error exc => (some (readRefused selector.isSome exc), s.setWorker i .idle)
  | _ => (none, s)

def endRead (s : ServiceState) (i : ℕ) : Option ServiceResponse × ServiceState :=
  match s.workers i with
  | .reading verification events =>
    match recheckTerminalJournalState P s.content verification with
    | .ok () => (some (events.elim (.health []) .timeline), s.setWorker i .idle)
    | .error exc => (some (readRefused events.isSome exc), s.setWorker i .idle)
  | _ => (none, s)

def listEvents (s : ServiceState) (authorization : Option Str) : ServiceResponse :=
  match app.principal authorization with
  | .error failure => .refused 401 failure
  | .ok principal =>
    match requireCapability principal .eventsRead with
    | .error failure => .refused 403 failure
    | .ok () =>
      match verifiedJournalSnapshot P s.content none .null with
      | .error exc => readFailure PyError.isJournalError exc
      | .ok snapshot =>
        if snapshot.ok then
          .events (snapshot.events.map fun e => (e.eventId, ingestionProvenance e))
        else .refused 503 .journalIntegrity

/-- The answer a step gives, if the request is done, and the state after it. A step of a worker that
has nothing of the kind in hand does nothing. -/
def ServiceStep.run (s : ServiceState) : ServiceStep → Option ServiceResponse × ServiceState
  | beginIngest i request host =>
    match s.workers i with
    | .idle => Service.beginIngest P acceptsPayload app s i request host
    | _ => (none, s)
  | readJournal i => Service.readJournal P R app s i
  | writeDatabase i prepared fault => Service.writeDatabase P s i prepared fault
  | beginTimeline i authorization traceId runId =>
    match s.workers i with
    | .idle => Service.beginTimeline app s i authorization traceId runId
    | _ => (none, s)
  | beginHealth i =>
    match s.workers i with
    | .idle => Service.beginHealth P s i
    | _ => (none, s)
  | openDatabase i => Service.openDatabase s i
  | readRows i => Service.readRows P R s i
  | endRead i => Service.endRead P s i
  | listEvents authorization => (some (Service.listEvents P app s authorization), s)

/-- The state after the steps. -/
def runService (s : ServiceState) (steps : List ServiceStep) : ServiceState :=
  steps.foldl (fun s step => (step.run P R acceptsPayload app s).2) s

/-- The service when it starts. -/
def ServiceState.start (content : Content) (database : Option ProjectionDatabase) : ServiceState :=
  ⟨content, database, fun _ => .idle⟩

variable {P R acceptsPayload app} in
theorem runService_append (s : ServiceState) (before rest : List ServiceStep) :
    runService P R acceptsPayload app s (before ++ rest)
      = runService P R acceptsPayload app (runService P R acceptsPayload app s before) rest :=
  List.foldl_append

end Handlers

/-- A rebuild by one worker without a pause is `rebuild_projection`. -/
theorem rebuildProjectionFile_eq (P : Platform) (R : PathResolver) (fault : ℕ → Option PyError)
    (prepared : Except PyError Unit) (journalPath databasePath : Str) (content : Content)
    (db : ProjectionDatabase) :
    rebuildProjectionFile P fault R prepared journalPath databasePath content db =
      match rebuildSource P R journalPath content with
      | .error exc => (.error exc, db)
      | .ok (resolved, snapshot) =>
        let run := rebuildDatabase P prepared fault resolved snapshot (some db)
        (run.1.map fun recordsIndexed =>
          { journalPath := resolved, databasePath, recordsIndexed
            lastEventHash := snapshot.terminalHash }, run.2.getD db) := by
  unfold rebuildProjectionFile rebuildSource
  cases R.resolve journalPath with
  | error exc => rfl
  | ok resolved =>
    cases verifiedJournalSnapshot P content none .null with
    | error exc => rfl
    | ok snapshot =>
      cases hok : snapshot.ok with
      | false => simp [bind, Except.bind, require, hok]
      | true =>
        cases prepared with
        | error exc => simp [bind, Except.bind, require, hok, rebuildDatabase, Except.map]
        | ok done => simp [bind, Except.bind, require, hok, rebuildDatabase]

/-- A health check of the projection by one worker without a pause is `verify_projection_state`. -/
theorem verifyProjectionState_eq (P : Platform) (R : PathResolver)
    (database : Option ProjectionDatabase) (content : Content) :
    verifyProjectionState P R database content = (do
      let db ← openProjection database
      let (verification, _) ← readProjection P R db content none
      recheckTerminalJournalState P content verification
      .ok verification) := by
  cases database with
  | none => rfl
  | some db =>
    show (do
      let verification ←
        (verifyProjectionStateOnConnection P R db content).mapError projectionStateFailure
      _) = _
    simp only [openProjection, readProjection, bind, Except.bind]
    cases (verifyProjectionStateOnConnection P R db content).mapError projectionStateFailure with
    | error exc => rfl
    | ok verification => rfl

end ActionLineage.Service
