import ActionLineage.Projection.Binding
import ActionLineage.Py.Connection

/-!
# Rebuilding a projection, statement by statement

`rebuild_projection` verifies the journal, and then works on one connection: it checks the schema,
deletes the rows, indexes the events one by one and writes the metadata, inside a transaction that
is committed last. Any statement can fail. A rebuild that returns leaves what
`rebuildProjectionInto` computes.
-/

namespace ActionLineage

open Py

/-! ## Statements -/

/-- What binding a cell to a parameter raises. -/
def bindCell : SqlValue → Except PyError Unit
  | .text s => (utf8Encode s).elim (.error .unicodeEncodeError) fun _ => .ok ()
  | .integer i =>
    require (decide (-2 ^ 63 ≤ i ∧ i < 2 ^ 63))
      (.overflowError "Python int too large to convert to SQLite INTEGER")
  | _ => .ok ()

def bindCells : List SqlValue → Except PyError Unit
  | [] => .ok ()
  | cell :: cells => do
    bindCell cell
    bindCells cells

namespace SqlRow

def eventId (r : SqlRow) : SqlValue := r.cells.get ⟨0, by rw [r.length_eq]; decide⟩

def eventJson (r : SqlRow) : SqlValue := r.cells.get ⟨18, by rw [r.length_eq]; decide⟩

end SqlRow

/-- `INSERT INTO events`: event ids and record numbers are unique. -/
def insertRow (row : SqlRow) (db : ProjectionDatabase) : Except PyError ProjectionDatabase :=
  if db.events.any fun r =>
      r.eventId == row.eventId || r.journalRecordNumber == row.journalRecordNumber then
    .error .sqliteError
  else .ok { db with events := db.events ++ [row] }

structure RebuildResult where
  journalPath : Str
  databasePath : Str
  recordsIndexed : Nat
  lastEventHash : Option Text

/-- The handler around the connection. -/
def rebuildFailure : PyError → PyError
  | .sqliteError => .projectionError "sqlite projection rebuild failed"
  | exc => exc

section Rebuild

variable (P : Platform) (fault : ℕ → Option PyError)

/-- A block over a connection to the database. -/
abbrev OnDatabase (α : Type) : Type := Raising PyError (Connection ProjectionDatabase) α

open Raising (ofResult)

def indexEventOn (e : EventEnvelope) (journalRecordNumber : Nat) : OnDatabase Bool := do
  ofResult (require e.integrity.eventHash.isSome
    (.projectionError "cannot index event without integrity.event_hash"))
  let values ← ofResult (eventProjectionValues P e journalRecordNumber)
  ofResult (bindCell (.text e.eventId.val))
  let existing ← Connection.select fault fun db =>
    db.events.find? fun r => r.eventId == .text e.eventId.val
  match existing with
  | some row =>
    if pyEq row.journalRecordNumber.toValue (.int journalRecordNumber)
        && pyEq row.eventJson.toValue (.str values.eventJson) then pure false
    else ofResult (.error (.eventAlreadyIndexed e.eventId.val))
  | none => do
    ofResult (bindCells values.stored.cells)
    Connection.execute fault (insertRow values.stored)
    pure true

/-- The loop over the verified events, and how many there were. -/
def indexEventsOn : Nat → List EventEnvelope → OnDatabase Nat
  | _, [] => pure 0
  | recordNumber, e :: es => do
    let _ ← indexEventOn P fault e recordNumber
    let indexedCount ← indexEventsOn (recordNumber + 1) es
    pure (indexedCount + 1)

/-- `_set_metadata`. -/
def setMetadataOn : List (Str × Str) → OnDatabase Unit
  | [] => pure ()
  | (key, value) :: values => do
    ofResult (bindCells [.text key, .text value])
    Connection.execute fault fun db =>
      .ok { db with metadata := setMetadataKey db.metadata key value }
    setMetadataOn values

/-- `_set_user_version`. -/
def setUserVersionOn (version : Nat) : OnDatabase Unit :=
  Connection.define fault fun db => { db with userVersion := version }

/-- The scripts create what does not exist, two tables and two indexes, or add three columns. -/
def ensureSchemaOn : OnDatabase Unit := do
  let version ← Connection.select fault (·.userVersion)
  if version = 0 then do
    Connection.executeScript fault [id, id, id, id]
    setUserVersionOn fault PROJECTION_SCHEMA_VERSION
    setMetadataOn fault [(lit "schema_version", lit "2")]
  else if version = 1 then do
    Connection.executeScript fault [id, id, id]
    setUserVersionOn fault PROJECTION_SCHEMA_VERSION
    setMetadataOn fault [(lit "schema_version", lit "2")]
  else
    ofResult (require (version == PROJECTION_SCHEMA_VERSION)
      (.projectionSchemaError "unsupported projection schema version"))

/-- The block inside the connection, and the number of indexed events. -/
def rebuildBlock (journalPath : Str) (snapshot : VerifiedJournalSnapshot) : OnDatabase Nat := do
  ensureSchemaOn fault
  Connection.execute fault fun db => .ok { db with events := [] }
  let indexedCount ← indexEventsOn P fault 1 snapshot.events
  ofResult (require (decide (indexedCount = snapshot.recordCount))
    (.projectionError "indexed record count does not match verified journal snapshot"))
  let sourceJournalIdentity ← ofResult (journalSourceIdentity P snapshot)
  let sourceJournalSha256 := snapshot.journalSha256.getD []
  let identity ← ofResult (projectionIdentity P sourceJournalIdentity sourceJournalSha256 indexedCount
    (optText snapshot.terminalHash) PROJECTION_SCHEMA_VERSION)
  setMetadataOn fault
    [(lit "schema_version", lit "2"), (lit "source_journal_path", journalPath),
     (lit "source_journal_identity", sourceJournalIdentity),
     (lit "source_journal_identity_version", JOURNAL_SOURCE_IDENTITY_VERSION),
     (lit "source_journal_sha256", sourceJournalSha256), (lit "projection_identity", identity),
     (lit "records_indexed", natText indexedCount),
     (lit "last_event_hash", snapshot.terminalHash.elim [] Subtype.val)]
  pure indexedCount

/-- `_connect`: opening the file and the pragma can fail before the transaction is there. -/
def connect {α : Type} (block : OnDatabase α) : OnDatabase α := do
  Connection.statement fault
  Connection.statement fault
  Connection.transaction fault block

variable (R : PathResolver)

/-- `rebuild_projection` on the file of a database: what it returns or raises, and what the file
holds after it. `prepared` is what creating the private directory and file gives. -/
def rebuildProjectionFile (prepared : Except PyError Unit) (journalPath databasePath : Str)
    (content : Content) (db : ProjectionDatabase) :
    Except PyError RebuildResult × ProjectionDatabase :=
  match (do
      let journalPath ← R.resolve journalPath
      let snapshot ← verifiedJournalSnapshot P content none .null
      require snapshot.ok
        (.projectionError "cannot rebuild projection from a journal that fails verification")
      prepared
      .ok (journalPath, snapshot) : Except PyError (Str × VerifiedJournalSnapshot)) with
  | .error exc => (.error exc, db)
  | .ok (journalPath, snapshot) =>
    let run := connect fault (rebuildBlock P fault journalPath snapshot) { committed := db }
    ((run.1.mapError rebuildFailure).map fun recordsIndexed =>
      { journalPath, databasePath, recordsIndexed, lastEventHash := snapshot.terminalHash },
     run.2.committed)

end Rebuild

/-! ## What a block leaves -/

section Within

open Connection (Within)

variable {P : Platform} {fault : ℕ → Option PyError} {s : ProjectionDatabase}

/-- A database with the rows of a rebuild. -/
def ProjectionDatabase.withRows (db : ProjectionDatabase) (rows : List EventRow) :
    ProjectionDatabase :=
  { db with events := rows.map EventRow.stored }

theorem find?_withRows (db : ProjectionDatabase) (rows : List EventRow) (eventId : Str) :
    ((db.withRows rows).events.find? fun r => r.eventId == .text eventId)
      = (rows.find? fun r => r.eventId == eventId).map EventRow.stored := by
  have hsame : ∀ r : EventRow, (r.stored.eventId == SqlValue.text eventId) = (r.eventId == eventId) := by
    intro r
    rw [Bool.eq_iff_iff, beq_iff_eq, beq_iff_eq]
    exact ⟨SqlValue.text.inj, congrArg SqlValue.text⟩
  unfold ProjectionDatabase.withRows
  rw [List.find?_map]
  congr 2
  exact funext hsame

theorem exists_utf8Encode_of_bindCell {t : Str} (h : bindCell (.text t) = .ok ()) :
    ∃ b, utf8Encode t = some b := by
  have h' : (utf8Encode t).elim (Except.error PyError.unicodeEncodeError) (fun _ => Except.ok ())
      = Except.ok () := h
  cases hbytes : utf8Encode t with
  | none =>
    rw [hbytes] at h'
    cases h'
  | some b => exact ⟨b, rfl⟩

theorem within_indexEvent (db : ProjectionDatabase) (rows : List EventRow) (e : EventEnvelope)
    (n : ℕ) :
    Within s (· = db.withRows rows) (indexEventOn P fault e n) fun _ d =>
      ∃ inserted rows', indexEvent P rows e n = .ok (inserted, rows') ∧ d = db.withRows rows' := by
  unfold indexEventOn
  refine Within.ofResult_bind fun _ hhash => Within.ofResult_bind fun values hvalues => ?_
  refine Within.ofResult_bind fun _ _ => Within.bind (Within.select _) fun existing => ?_
  refine Within.of_forall fun d hd => ?_
  obtain ⟨rfl, rfl⟩ := hd
  rw [find?_withRows]
  cases hrow : rows.find? fun r => r.eventId == e.eventId.val with
  | some row =>
    have hindex (hsame : row.journalRecordNumber = n ∧ row.eventJson = values.eventJson) :
        indexEvent P rows e n = .ok (false, rows) := by
      refine bind_eq_ok.mpr ⟨(), hhash, bind_eq_ok.mpr ⟨values, hvalues, ?_⟩⟩
      rw [hrow]
      exact if_pos hsame
    dsimp only [Option.map_some]
    split
    · rename_i hsame
      refine Within.ret fun d hd => ⟨false, rows, hindex ?_, hd⟩
      obtain ⟨hnumber, hjson⟩ := Bool.and_eq_true_iff.mp hsame
      have hnumber' : ((row.journalRecordNumber : ℤ) = n) := numberEq_int.mp hnumber
      have hjson' : (row.eventJson == values.eventJson) = true := hjson
      exact ⟨Int.ofNat_inj.mp hnumber', beq_iff_eq.mp hjson'⟩
    · refine Within.ofResult fun _ _ h => ?_
      cases h
  | none =>
    have hindex : indexEvent P rows e n = .ok (true, rows ++ [values]) := by
      refine bind_eq_ok.mpr ⟨(), hhash, bind_eq_ok.mpr ⟨values, hvalues, ?_⟩⟩
      rw [hrow]
    refine Within.ofResult_bind fun _ _ => Within.bind (Q := fun _ d => d = db.withRows (rows ++ [values]))
      (Within.execute fun d d' hd hd' => ?_) fun _ => ?_
    · subst hd
      unfold insertRow at hd'
      split at hd'
      · cases hd'
      · cases hd'
        unfold ProjectionDatabase.withRows
        rw [List.map_append]
        rfl
    · exact Within.ret fun d hd => ⟨true, _, hindex, hd⟩

/-- The loop leaves the rows that indexing computes. -/
theorem within_indexEvents (db : ProjectionDatabase) (es : List EventEnvelope) (n : ℕ)
    (rows : List EventRow) :
    Within s (· = db.withRows rows) (indexEventsOn P fault n es) fun indexedCount d =>
      indexedCount = es.length ∧
        ∃ rows', indexEvents P rows n es = .ok rows' ∧ d = db.withRows rows' := by
  induction es generalizing n rows with
  | nil => exact Within.ret fun d hd => ⟨rfl, rows, rfl, hd⟩
  | cons e es ih =>
    refine Within.bind (within_indexEvent db rows e n) fun _ => Within.of_forall fun d hd => ?_
    obtain ⟨inserted, rows₁, hindex, rfl⟩ := hd
    refine Within.bind (ih (n + 1) rows₁) fun indexedCount => Within.ret fun d hd => ?_
    obtain ⟨hcount, rows', hrest, rfl⟩ := hd
    exact ⟨by rw [hcount, List.length_cons], rows', bind_eq_ok.mpr ⟨_, hindex, hrest⟩, rfl⟩

/-- Metadata are written under keys and values that can be bound. -/
theorem within_setMetadata (db : ProjectionDatabase) (values : List (Str × Str))
    (metadata : List (SqlValue × SqlValue)) :
    Within s (· = { db with metadata }) (setMetadataOn fault values) fun _ d =>
      d = { db with metadata := setMetadata metadata values } ∧
        ∀ p ∈ values, bindCell (.text p.2) = .ok () := by
  induction values generalizing metadata with
  | nil => exact Within.ret fun d hd => ⟨hd, fun _ hp => nomatch hp⟩
  | cons p values ih =>
    obtain ⟨key, value⟩ := p
    refine Within.ofResult_bind fun _ hbind => ?_
    refine Within.bind (Q := fun _ d => d = { db with metadata := setMetadataKey metadata key value })
      (Within.execute fun d d' hd hd' => ?_) fun _ => ?_
    · subst hd
      cases hd'
      rfl
    · refine Within.mono (ih _) fun _ d hd => ⟨hd.1, fun q hq => ?_⟩
      rcases List.mem_cons.mp hq with rfl | hq
      · obtain ⟨_, -, hrest⟩ := bind_eq_ok.mp hbind
        obtain ⟨_, hvalue, -⟩ := bind_eq_ok.mp hrest
        exact hvalue
      · exact hd.2 q hq

/-- A current schema is left as it is. -/
theorem within_ensureSchema {db : ProjectionDatabase}
    (hversion : db.userVersion = PROJECTION_SCHEMA_VERSION) :
    Within s (· = db) (ensureSchemaOn fault) fun _ d => d = db := by
  refine Within.bind (Within.select _) fun version => Within.of_forall fun d hd => ?_
  obtain ⟨rfl, rfl⟩ := hd
  rw [hversion]
  exact Within.ofResult fun _ _ _ hd => hd

variable {R : PathResolver}

/-- Once the schema is there, the rest of the block runs inside the transaction and leaves what the
rebuild computes. -/
theorem rebuildBlock_of_schema {db db₁ : ProjectionDatabase} {path resolved : Str}
    {content : Content} {snapshot : VerifiedJournalSnapshot} {c c₁ : Connection ProjectionDatabase}
    (hrun : ensureSchemaOn fault c = (.ok (), c₁)) (hcurrent : c₁.current = db₁)
    (hschema : ensureSchema db = .ok db₁) (hpath : R.resolve path = .ok resolved)
    (hsnapshot : verifiedJournalSnapshot P content none .null = .ok snapshot)
    (hok : snapshot.ok = true) :
    (rebuildBlock P fault resolved snapshot c).2.committed = c₁.committed ∧
      ∀ indexedCount, (rebuildBlock P fault resolved snapshot c).1 = .ok indexedCount →
        indexedCount = snapshot.events.length ∧
        rebuildProjectionInto P R db path content
          = .ok (rebuildBlock P fault resolved snapshot c).2.current ∧
        ∃ rows, RowsOf P 1 snapshot.events rows ∧
          (rebuildBlock P fault resolved snapshot c).2.current.events
            = rows.map EventRow.stored := by
  unfold rebuildBlock
  rw [Raising.bind_of_ok hrun]
  suffices h : Within c₁.committed (· = db₁) _ fun indexedCount d =>
      indexedCount = snapshot.events.length ∧
        rebuildProjectionInto P R db path content = .ok d ∧
        ∃ rows, RowsOf P 1 snapshot.events rows ∧ d.events = rows.map EventRow.stored from
    h c₁ rfl hcurrent
  refine Within.bind (Q := fun _ d => d = db₁.withRows []) (Within.execute fun d d' hd hd' => ?_)
    fun _ => ?_
  · subst hd
    cases hd'
    rfl
  refine Within.bind (within_indexEvents db₁ snapshot.events 1 []) fun indexedCount => ?_
  refine Within.of_forall fun d hd => ?_
  obtain ⟨rfl, rows, hindex, rfl⟩ := hd
  refine Within.ofResult_bind fun _ hcount => Within.ofResult_bind fun source hsource => ?_
  refine Within.ofResult_bind fun identity hidentity => ?_
  refine Within.bind (within_setMetadata (db₁.withRows rows) _ db₁.metadata) fun _ => ?_
  refine Within.ret fun d hd => ⟨rfl, ?_, ?_⟩
  case refine_2 =>
    obtain ⟨rows', hrows, hrowsOf⟩ := indexEvents_rowsOf (by simp) hindex
    rw [List.nil_append] at hrows
    exact ⟨rows, hrows ▸ hrowsOf, congrArg ProjectionDatabase.events hd.1⟩
  obtain ⟨rfl, hbind⟩ := hd
  have hencode : bindCell (.text resolved) = .ok () := hbind (lit "source_journal_path", resolved) (by simp)
  refine bind_eq_ok.mpr ⟨resolved, hpath, bind_eq_ok.mpr ⟨snapshot, hsnapshot, bind_eq_ok.mpr
    ⟨(), require_eq_ok.mpr hok, bind_eq_ok.mpr ⟨db₁, hschema, bind_eq_ok.mpr ⟨rows, hindex,
    bind_eq_ok.mpr ⟨(), hcount, bind_eq_ok.mpr ⟨source, hsource, bind_eq_ok.mpr
    ⟨identity, hidentity, ?_⟩⟩⟩⟩⟩⟩⟩⟩
  obtain ⟨bytes, hbytes⟩ := exists_utf8Encode_of_bindCell hencode
  rw [hbytes]
  rfl

/-- What the block leaves is what the rebuild computes. -/
theorem within_rebuild {db : ProjectionDatabase} {path resolved : Str} {content : Content}
    {snapshot : VerifiedJournalSnapshot}
    (hversion : db.userVersion = PROJECTION_SCHEMA_VERSION) (hpath : R.resolve path = .ok resolved)
    (hsnapshot : verifiedJournalSnapshot P content none .null = .ok snapshot)
    (hok : snapshot.ok = true) :
    Within s (· = db) (rebuildBlock P fault resolved snapshot) fun indexedCount d =>
      indexedCount = snapshot.events.length ∧
        rebuildProjectionInto P R db path content = .ok d ∧
        ∃ rows, RowsOf P 1 snapshot.events rows ∧ d.events = rows.map EventRow.stored := by
  have hschema : ensureSchema db = .ok db := by
    unfold ensureSchema
    rw [if_neg (by rw [hversion]; exact lt_irrefl _), if_pos hversion]
  intro c hc hP
  have hwithin : Within s (· = db) (ensureSchemaOn fault) fun _ d => d = db :=
    within_ensureSchema hversion
  obtain ⟨hkeep, hpost⟩ := hwithin c hc hP
  rcases hrun : ensureSchemaOn fault c with ⟨result, c₁⟩
  rw [hrun] at hkeep hpost
  cases result with
  | error e =>
    have hraise : rebuildBlock P fault resolved snapshot c = (.error e, c₁) :=
      Raising.bind_of_error hrun
    rw [hraise]
    exact ⟨hkeep, fun _ h => by cases h⟩
  | ok done =>
    obtain ⟨hcommitted, hrest⟩ := rebuildBlock_of_schema (P := P) hrun (hpost done rfl) hschema hpath
      hsnapshot hok
    exact ⟨hcommitted.trans hkeep, hrest⟩

variable (fault) in
/-- The two statements of the connection come before the transaction. -/
theorem connect_committed {α : Type} {block : OnDatabase α} {Q : α → ProjectionDatabase → Prop}
    {db : ProjectionDatabase} (h : Within db (· = db) block Q) :
    (∀ exc, (connect fault block { committed := db }).1 = .error exc →
      (connect fault block { committed := db }).2.committed = db) ∧
    ∀ a, (connect fault block { committed := db }).1 = .ok a →
      Q a (connect fault block { committed := db }).2.committed := by
  unfold connect
  rcases Connection.statement_run fault { committed := db } with ⟨e, hopen⟩ | hopen
  · rw [Raising.bind_of_error hopen]
    exact ⟨fun _ _ => rfl, fun _ h => nomatch h⟩
  rw [Raising.bind_of_ok hopen]
  rcases Connection.statement_run fault { committed := db, statements := 0 + 1 }
    with ⟨e, hpragma⟩ | hpragma
  · rw [Raising.bind_of_error hpragma]
    exact ⟨fun _ _ => rfl, fun _ h => nomatch h⟩
  · rw [Raising.bind_of_ok hpragma]
    exact h.transaction rfl rfl

end Within

/-- What the file holds after a rebuild that raises, and after one that returns. -/
theorem rebuildProjectionFile_run {P : Platform} {fault : ℕ → Option PyError} {R : PathResolver}
    {prepared : Except PyError Unit} {journalPath databasePath : Str} {content : Content}
    {db : ProjectionDatabase} (hversion : db.userVersion = PROJECTION_SCHEMA_VERSION) :
    (∀ exc db', rebuildProjectionFile P fault R prepared journalPath databasePath content db
      = (.error exc, db') → db' = db) ∧
    ∀ result db', rebuildProjectionFile P fault R prepared journalPath databasePath content db
      = (.ok result, db') →
        rebuildProjectionInto P R db journalPath content = .ok db' ∧
          ∃ es rows, Verified P content es ∧ RowsOf P 1 es rows ∧
            db'.events = rows.map EventRow.stored := by
  unfold rebuildProjectionFile
  split
  · refine ⟨fun _ _ h => ?_, fun _ _ h => nomatch (Prod.mk.inj h).1⟩
    exact (Prod.mk.inj h).2.symm
  · rename_i resolved snapshot hread
    obtain ⟨resolved', hpath, hread⟩ := bind_eq_ok.mp hread
    obtain ⟨snapshot', hsnapshot, hread⟩ := bind_eq_ok.mp hread
    obtain ⟨_, hok, hread⟩ := bind_eq_ok.mp hread
    obtain ⟨_, -, hread⟩ := bind_eq_ok.mp hread
    obtain ⟨rfl, rfl⟩ := Prod.mk.inj (Except.ok.inj hread)
    obtain ⟨hraise, hreturn⟩ := connect_committed fault (within_rebuild (P := P)
      hversion hpath hsnapshot (require_eq_ok.mp hok))
    dsimp only
    cases hrun : (connect fault (rebuildBlock P fault resolved' snapshot') { committed := db }).1 with
    | error exc =>
      refine ⟨fun _ _ h => ?_, fun _ _ h => nomatch (Prod.mk.inj h).1⟩
      exact (Prod.mk.inj h).2.symm.trans (hraise exc hrun)
    | ok indexedCount =>
      refine ⟨fun _ _ h => (nomatch (Prod.mk.inj h).1), fun _ db' h => ?_⟩
      obtain ⟨es, hv, hsnapshotOf⟩ := snapshot_ok_iff.mp ⟨hsnapshot, require_eq_ok.mp hok⟩
      obtain ⟨-, hinto, rows, hrows, hevents⟩ := hreturn indexedCount hrun
      rw [hsnapshotOf] at hrows
      rw [(Prod.mk.inj h).2] at hinto hevents
      exact ⟨hinto, es, rows, hv, hrows, hevents⟩

/-- **SQLite rebuild atomicity.** A rebuild that raises leaves the database as it was; one that
returns leaves the rows of the verified journal, one for each record. -/
theorem rebuild_atomic (P : Platform) (fault : ℕ → Option PyError) (R : PathResolver)
    (prepared : Except PyError Unit) (journalPath databasePath : Str) (content : Content)
    (db : ProjectionDatabase) (hversion : db.userVersion = PROJECTION_SCHEMA_VERSION) :
    (∀ exc db', rebuildProjectionFile P fault R prepared journalPath databasePath content db
      = (.error exc, db') → db' = db) ∧
    ∀ result db', rebuildProjectionFile P fault R prepared journalPath databasePath content db
      = (.ok result, db') →
        ∃ es rows, Verified P content es ∧ RowsOf P 1 es rows ∧
          db'.events = rows.map EventRow.stored := by
  obtain ⟨hraise, hreturn⟩ := rebuildProjectionFile_run hversion
  exact ⟨hraise, fun result db' h => (hreturn result db' h).2⟩

/-- A database with one row of some other journal. -/
def staleDatabase : ProjectionDatabase :=
  { userVersion := 2, metadata := [(.text (lit "records_indexed"), .text (lit "1"))]
    events := [⟨List.replicate 19 (.text (lit "stale")), rfl⟩] }

/-- Rebuilding from an empty journal, where the commit is the thirteenth statement. -/
theorem rebuild_atomic_sample :
    (∃ exc, rebuildProjectionFile .plain (fun n => if n = 12 then some .sqliteError else none)
      plainPaths (.ok ()) (lit "/journal") (lit "/db") none staleDatabase
        = (.error exc, staleDatabase)) ∧
    ∃ result db', rebuildProjectionFile .plain (fun _ => none) plainPaths (.ok ()) (lit "/journal")
      (lit "/db") none staleDatabase = (.ok result, db') ∧
        ∃ es rows, Verified .plain none es ∧ RowsOf .plain 1 es rows ∧
          db'.events = rows.map EventRow.stored := by
  constructor
  · have hraise := (rebuild_atomic .plain (fun n => if n = 12 then some .sqliteError else none)
      plainPaths (.ok ()) (lit "/journal") (lit "/db") none staleDatabase rfl).1
    have herror : (rebuildProjectionFile .plain (fun n => if n = 12 then some .sqliteError else none)
        plainPaths (.ok ()) (lit "/journal") (lit "/db") none staleDatabase).1.isOk = false := by
      decide +kernel
    rcases hrun : rebuildProjectionFile .plain (fun n => if n = 12 then some .sqliteError else none)
      plainPaths (.ok ()) (lit "/journal") (lit "/db") none staleDatabase with ⟨result, db'⟩
    rw [hrun] at herror
    cases result with
    | ok result => cases herror
    | error exc => exact ⟨exc, by rw [hraise exc db' hrun]⟩
  · have hok : (rebuildProjectionFile .plain (fun _ => none) plainPaths (.ok ()) (lit "/journal")
        (lit "/db") none staleDatabase).1.toOption.isSome = true := by decide +kernel
    obtain ⟨result, hrun⟩ := exists_ok_of_isSome hok
    exact ⟨result, _, hrun, (rebuild_atomic .plain (fun _ => none) plainPaths (.ok ())
      (lit "/journal") (lit "/db") none staleDatabase rfl).2 result _ hrun⟩

end ActionLineage
