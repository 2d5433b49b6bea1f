import ActionLineage.Projection.PostgresState
import ActionLineage.Reference

/-!
# A rebuilt PostgreSQL projection and its verification

Everything a rebuild writes verifies against the same journal but the documents: they verify when
the server returns each of their floats as it is (`postgres_verifies_iff`). A server that writes
numbers without exponents (`Jsonb.numeric`) returns `1e16` as an integer, so a journal that has this
number is healthy and its fresh projection is not.
-/

namespace ActionLineage

open Py

variable {P : Platform} {server : PostgresServer}

/-! ## One row -/

/-- What a persisted event contributes. -/
structure ParametersOf (P : Platform) (e : EventEnvelope) (n : ℕ) (params : PostgresParameters) :
    Prop where
  read : eventProjectionParameters P e n = .ok params
  occurredAt : params.occurredAt = e.occurredAt.isoZ
  observedAt : params.observedAt = e.observedAt.isoZ
  recordNumber : params.journalRecordNumber = n
  wellFormed : (Value.dict (e.items e.payload.items)).WellFormed
  eventJson : dumpBytes (.dict (e.items e.payload.items)) = .ok (utf8Bytes params.eventJson)
  decodes : decodeUtf8 (utf8Bytes params.eventJson) = .ok params.eventJson
  document : loadsText (.plain P.recursionLimit) params.eventJson
    = .ok (Value.dict (e.items e.payload.items)).sortKeys

theorem exists_parametersOf {e : EventEnvelope} (h : Persisted P e) (n : ℕ) :
    ∃ params, ParametersOf P e n params := by
  obtain ⟨b, hb⟩ := h.serializes
  obtain ⟨o, text, hdict, hwf, hdecode, hload⟩ := storedDocument hb
  obtain ⟨o', hdict', ho, hdump, -⟩ := eventToDict_of_serializes hb
  have hsame : e.items o = e.items o' := Except.ok.inj (hdict.symm.trans hdict')
  -- a canonical payload is dumped as it is
  obtain rfl : o' = e.payload.items := by
    rw [h.canonical.dumpPayload] at ho
    exact (Except.ok.inj ho).symm
  rw [hsame] at hdict hwf hload
  obtain ⟨text', -, hfree, rfl⟩ := dumpBytes_eq_ok.mp hdump
  obtain rfl : text = text' := Except.ok.inj (hdecode.symm.trans (decodeUtf8_utf8Bytes hfree))
  have hsha : sha256Text P text = .ok (P.sha256Digest (utf8Bytes text)) := by
    unfold sha256Text
    rw [utf8Encode_eq_some.mpr ⟨hfree, rfl⟩]
    rfl
  have hread : eventProjectionParameters P e n = .ok _ :=
    bind_eq_ok.mpr ⟨(), require_eq_ok.mpr h.eventHash, bind_eq_ok.mpr ⟨_, hdict,
      bind_eq_ok.mpr ⟨_, hb, bind_eq_ok.mpr ⟨text, hdecode, bind_eq_ok.mpr ⟨_, hsha, rfl⟩⟩⟩⟩⟩
  rw [← Value.sortKeys_dict] at hload
  exact ⟨_, hread, rfl, rfl, rfl, hwf, hdump, hdecode, hload⟩

/-- The row of the parameters, with the document the server returns. -/
def PostgresServer.row (server : PostgresServer) (e : EventEnvelope) (params : PostgresParameters) :
    PostgresRow where
  columns := params
  occurredAt := e.occurredAt
  observedAt := e.observedAt
  eventJson := server.returned (Value.dict (e.items e.payload.items)).sortKeys

theorem ParametersOf.storedRow {e : EventEnvelope} {n : ℕ} {params : PostgresParameters}
    (h : ParametersOf P e n params) : storedRow P server params = .ok (server.row e params) := by
  unfold ActionLineage.storedRow
  rw [h.occurredAt, h.observedAt, h.document, server.timestamp_isoZ, server.timestamp_isoZ]
  rfl

/-- Only the payload has floats. -/
theorem keeps_items {e : EventEnvelope} {payload : Obj} :
    server.Keeps (.dict (e.items payload)) ↔ server.Keeps (.dict payload) := by
  have hopt : ∀ t : Option Text, server.Keeps (optText t) := by
    intro t
    cases t <;> exact fun _ h => nomatch h
  have hstr : ∀ s : Str, server.Keeps (.str s) := fun _ _ h => nomatch h
  have hint : ∀ i : Int, server.Keeps (.int i) := fun _ _ h => nomatch h
  have hdict : ∀ kvs : Obj, server.Keeps (.dict kvs) ↔ ∀ p ∈ kvs, server.Keeps p.2 :=
    fun kvs => (Value.all_dict kvs).trans (iff_of_eq (true_and _))
  rw [hdict]
  simp only [EventEnvelope.items, Source.json, Source.items, Correlation.json, Correlation.items,
    Causality.json, Causality.items, Principal.json, Principal.items, Classification.json,
    Classification.items, IntegrityMetadata.json, IntegrityMetadata.items, List.forall_mem_cons,
    List.not_mem_nil, false_imp_iff, implies_true, hdict, hstr, hint, hopt, true_and, and_true]

/-- A row verifies when the server keeps the floats of the payload. -/
theorem verifyPostgresRow_eq_ok {e : EventEnvelope} {n : ℕ} {params : PostgresParameters}
    (h : ParametersOf P e n params) :
    verifyPostgresRow P (server.row e params) e n = .ok () ↔ server.Keeps (.dict e.payload.items) := by
  have hwf := Value.wellFormed_sortKeys.mpr h.wellFormed
  have hdump : dumpBytes (Value.dict (e.items e.payload.items)).sortKeys
      = .ok (utf8Bytes params.eventJson) := (dumpBytes_sortKeys _).trans h.eventJson
  have hkeeps : server.Keeps (Value.dict (e.items e.payload.items)).sortKeys ↔
      server.Keeps (.dict e.payload.items) :=
    (Value.all_sortKeys fun _ h => h).trans keeps_items
  rw [Value.sortKeys_dict] at hwf hdump hkeeps
  have hreturned := @Jsonb.dumpBytes_returned_eq_iff server.toJsonb _ hwf _ hdump
  rw [← hkeeps, ← hreturned]
  have hactual : { params with
      occurredAt := e.occurredAt.isoZ, observedAt := e.observedAt.isoZ,
      eventJson := params.eventJson } = params := by
    rw [← h.occurredAt, ← h.observedAt]
  unfold verifyPostgresRow PostgresServer.row
  rw [Value.sortKeys_dict, Jsonb.returned_dict]
  constructor
  · intro hverify
    obtain ⟨eventJson, htext, hverify⟩ := bind_eq_ok.mp hverify
    obtain ⟨expected, hexpected, hverify⟩ := bind_eq_ok.mp hverify
    obtain rfl := Except.ok.inj (h.read.symm.trans hexpected)
    obtain ⟨-, hsame⟩ := Bool.and_eq_true_iff.mp (require_eq_ok.mp hverify)
    -- the text that was compared is the one the returned document is written as
    obtain ⟨b, hb, htext⟩ := bind_eq_ok.mp htext
    obtain ⟨t, ht, htext⟩ := bind_eq_ok.mp htext
    obtain rfl := Except.ok.inj htext
    have hb := mapError_eq_ok.mp hb
    obtain ⟨t', -, hfree, rfl⟩ := dumpBytes_eq_ok.mp hb
    obtain rfl := Except.ok.inj ((decodeUtf8_utf8Bytes hfree).symm.trans ht)
    have hsame' : t' = params.eventJson := beq_iff_eq.mp hsame
    rw [← hsame']
    exact hb
  · intro hdocument
    refine bind_eq_ok.mpr ⟨.str params.eventJson, ?_, ?_⟩
    · exact bind_eq_ok.mpr ⟨_, mapError_eq_ok.mpr hdocument, bind_eq_ok.mpr ⟨_, h.decodes, rfl⟩⟩
    · refine bind_eq_ok.mpr ⟨params, h.read, require_eq_ok.mpr ?_⟩
      rw [Bool.and_eq_true_iff, decide_eq_true_eq]
      exact ⟨hactual, beq_iff_eq.mpr rfl⟩

/-! ## All rows -/

/-- The rows of the records, one each. -/
def PostgresRowsOf (P : Platform) (server : PostgresServer) (n : ℕ) (es : List EventEnvelope)
    (rows : List PostgresRow) : Prop :=
  List.Forall₂ (fun p row => ∃ params, ParametersOf P p.1 p.2 params ∧ row = server.row p.1 params)
    (es.zipIdx n) rows

theorem postgresRowsOf_cons {n : ℕ} {e : EventEnvelope} {es : List EventEnvelope}
    {rows : List PostgresRow} :
    PostgresRowsOf P server n (e :: es) rows ↔ ∃ params more, ParametersOf P e n params ∧
      PostgresRowsOf P server (n + 1) es more ∧ rows = server.row e params :: more := by
  rw [PostgresRowsOf, List.zipIdx_cons, List.forall₂_cons_left_iff]
  constructor
  · intro h
    obtain ⟨row, more, ⟨params, hparams, rfl⟩, hmore, rfl⟩ := h
    exact ⟨params, more, hparams, hmore, rfl⟩
  · intro h
    obtain ⟨params, more, hparams, hmore, rfl⟩ := h
    exact ⟨_, more, ⟨params, hparams, rfl⟩, hmore, rfl⟩

theorem indexPostgresEvents_rowsOf {es : List EventEnvelope} {rows rows' : List PostgresRow} {n : ℕ}
    (hpersisted : ∀ e ∈ es, Persisted P e)
    (h : indexPostgresEvents P server rows n es = .ok rows') :
    ∃ more, rows' = rows ++ more ∧ PostgresRowsOf P server n es more := by
  induction es generalizing rows n with
  | nil =>
    obtain rfl := Except.ok.inj h
    exact ⟨[], (List.append_nil rows).symm, .nil⟩
  | cons e es ih =>
    obtain ⟨params, hparams, h⟩ := bind_eq_ok.mp h
    obtain ⟨row, hrow, h⟩ := bind_eq_ok.mp h
    obtain ⟨rows₁, hinsert, h⟩ := bind_eq_ok.mp h
    obtain ⟨params', hof⟩ := exists_parametersOf (hpersisted e List.mem_cons_self) n
    obtain rfl := Except.ok.inj (hof.read.symm.trans hparams)
    obtain rfl := Except.ok.inj (hof.storedRow.symm.trans hrow)
    unfold insertPostgresRow at hinsert
    split at hinsert
    · cases hinsert
    · obtain rfl := Except.ok.inj hinsert
      obtain ⟨more, rfl, hmore⟩ := ih (fun d hd => hpersisted d (List.mem_cons_of_mem _ hd)) h
      refine ⟨server.row e params' :: more, by rw [List.append_assoc, List.singleton_append], ?_⟩
      exact postgresRowsOf_cons.mpr ⟨params', more, hof, hmore, rfl⟩

theorem PostgresRowsOf.length_eq {n : ℕ} {es : List EventEnvelope} {rows : List PostgresRow}
    (h : PostgresRowsOf P server n es rows) : rows.length = es.length := by
  rw [← List.Forall₂.length_eq h, List.length_zipIdx]

/-- Record numbers count up. -/
theorem PostgresRowsOf.ordered {n : ℕ} {es : List EventEnvelope} {rows : List PostgresRow}
    (h : PostgresRowsOf P server n es rows) :
    (∀ r ∈ rows, n ≤ r.columns.journalRecordNumber) ∧
      rows.Pairwise fun a b => a.columns.journalRecordNumber ≤ b.columns.journalRecordNumber := by
  induction es generalizing n rows with
  | nil =>
    cases h
    exact ⟨fun _ h => (nomatch h), List.Pairwise.nil⟩
  | cons e es ih =>
    obtain ⟨params, more, hparams, hmore, rfl⟩ := postgresRowsOf_cons.mp h
    obtain ⟨hlow, hordered⟩ := ih hmore
    have hnumber : (server.row e params).columns.journalRecordNumber = n := hparams.recordNumber
    constructor
    · intro r hr
      rcases List.mem_cons.mp hr with rfl | hr
      · exact hnumber.ge
      · exact Nat.le_of_succ_le (hlow r hr)
    · rw [List.pairwise_cons, hnumber]
      exact ⟨fun r hr => Nat.le_of_succ_le (hlow r hr), hordered⟩

/-- Rows of records are fetched in the order of the records. -/
theorem PostgresRowsOf.fetched {n : ℕ} {es : List EventEnvelope} {db : PostgresDatabase}
    (h : PostgresRowsOf P server n es db.rows) : fetchPostgresProjectedRows db = db.rows :=
  h.ordered.2.insertionSort_eq

/-- The comparison goes through when every document is kept. -/
theorem verifyPostgresRows_eq_ok {es : List EventEnvelope} {rows : List PostgresRow} {n : ℕ}
    (h : PostgresRowsOf P server n es rows) :
    verifyPostgresRows P n es rows = .ok () ↔ ∀ e ∈ es, server.Keeps (.dict e.payload.items) := by
  induction es generalizing n rows with
  | nil =>
    cases h
    exact ⟨fun _ _ h => (nomatch h), fun _ => rfl⟩
  | cons e es ih =>
    obtain ⟨params, more, hparams, hmore, rfl⟩ := postgresRowsOf_cons.mp h
    rw [verifyPostgresRows, bind_eq_ok, List.forall_mem_cons, ← ih hmore,
      ← verifyPostgresRow_eq_ok hparams]
    exact ⟨fun ⟨_, hrow, hrest⟩ => ⟨hrow, hrest⟩, fun ⟨hrow, hrest⟩ => ⟨(), hrow, hrest⟩⟩

/-! ## The metadata -/

theorem keys_metadataWrites (journalPath : Text) (identity : Str) (s : VerifiedJournalSnapshot) :
    ((metadataWrites journalPath identity s).map Dict.Write.key).Nodup := by
  simp only [metadataWrites, List.map_cons, List.map_nil, Dict.Write.key]
  decide

section Metadata

variable {metadata : Dict Str Str}

theorem postgresMetadataInt_natText {key : String} {n : ℕ}
    (hget : metadata.get? (lit key) = some (natText n)) (hlen : (natText n).length ≤ maxIntDigits) :
    postgresMetadataInt P metadata key = .ok n := by
  unfold postgresMetadataInt
  rw [hget]
  dsimp only
  rw [intOfText_natText (fun _ => isSpace_of_digit) hlen]
  dsimp only
  rw [if_neg (not_lt.mpr (Int.natCast_nonneg n)), Int.toNat_natCast]

theorem postgresMetadataText_eq_ok {key : String} {value : Str}
    (hget : metadata.get? (lit key) = some value) :
    postgresMetadataText metadata key = .ok value := by
  unfold postgresMetadataText
  rw [hget]
  rfl

end Metadata

theorem textOrNone_terminalHash (o : Option Text) :
    textOrNone (o.elim [] Subtype.val) = o.map Subtype.val := by
  cases o with
  | none => rfl
  | some t => exact if_neg t.property

/-- The metadata of a rebuild verify. -/
theorem verifyPostgresMetadata_rebuilt {content : Content} {es : List EventEnvelope}
    (hv : Verified P content es) {identity : Str}
    (hidentity : journalSourceIdentity P (verifiedSnapshot P content es) = .ok identity)
    (metadata : Dict Str Str) (journalPath : Text) :
    verifyPostgresMetadata P
      (metadata.writeAll (metadataWrites journalPath identity (verifiedSnapshot P content es)))
      (verifiedSnapshot P content es)
        = .ok (es.length, (terminalHash none es).map Subtype.val) := by
  set s := verifiedSnapshot P content es with hs
  have hget : ∀ k v, Dict.Write.set k v ∈ metadataWrites journalPath identity s →
      (metadata.writeAll (metadataWrites journalPath identity s)).get? k = some v :=
    fun _ _ => Dict.get?_writeAll_of_nodup (keys_metadataWrites _ _ _)
  have hcount := (journalSourceIdentity_isOk_iff hv).mp ⟨identity, hidentity⟩
  rw [← natText_length_le_iff (by decide)] at hcount
  have hversion : postgresMetadataInt P _ "schema_version"
      = .ok POSTGRES_PROJECTION_SCHEMA_VERSION :=
    postgresMetadataInt_natText (hget _ _ (by simp [metadataWrites])) (by decide)
  have hrecords : postgresMetadataInt P _ "records_indexed" = .ok es.length :=
    postgresMetadataInt_natText (hget _ _ (by simp [metadataWrites, hs, verifiedSnapshot])) hcount
  have hpath := postgresMetadataText_eq_ok
    (hget (lit "source_journal_path") journalPath.val (by simp [metadataWrites]))
  have hlast := postgresMetadataText_eq_ok
    (hget (lit "last_event_hash") (s.terminalHash.elim [] Subtype.val) (by simp [metadataWrites]))
  have hsource := postgresMetadataText_eq_ok
    (hget (lit "source_journal_identity") identity (by simp [metadataWrites]))
  have hsourceVersion := postgresMetadataText_eq_ok
    (hget (lit "source_journal_identity_version") JOURNAL_SOURCE_IDENTITY_VERSION
      (by simp [metadataWrites]))
  have hdigest := postgresMetadataText_eq_ok
    (hget (lit "source_journal_sha256") (s.journalSha256.getD []) (by simp [metadataWrites]))
  have hpresent : (journalPath.val != []) = true := bne_iff_ne.mpr journalPath.property
  have hlocal : (lit "local-file:").isPrefixOf identity = false :=
    isPrefixOf_namespacedDigest (by decide +kernel) (by decide +kernel) hidentity
  have hsourcePresent : (identity != []) = true := by
    have htruthy := namespacedDigest_truthy hidentity
    simpa [SqlValue.truthy, SqlValue.toValue, Value.truthy] using htruthy
  have hterm : s.terminalHash = terminalHash none es := rfl
  have hlength : s.recordCount = es.length := rfl
  unfold verifyPostgresMetadata
  simp only [hversion, hrecords, hpath, hlast, hsource, hsourceVersion, hdigest, hidentity,
    hpresent, hlocal, hsourcePresent, textOrNone_terminalHash, hterm, hlength, require,
    beq_self_eq_true, Bool.and_self, Bool.not_false, bind, Except.bind, if_true, ne_eq,
    not_true_eq_false, if_false]

/-- **PostgreSQL rebuild, then verify.** Right after a rebuild the projection is healthy for the same
journal exactly when the server returns every float of every payload as it is. -/
theorem postgres_verifies_iff (P : Platform) (server : PostgresServer) (db db' : PostgresDatabase)
    (journalPath : Text) (tableName : Str) (content : Content) (s : VerifiedJournalSnapshot)
    (hs : verifiedJournalSnapshot P content none .null = .ok s) (hok : s.ok = true)
    (hrebuild : rebuildPostgresProjection P server db journalPath tableName content = .ok db') :
    (∃ verified, verifyPostgresProjectionState P db' tableName content = .ok verified) ↔
      ∀ e ∈ s.events, server.Keeps (.dict e.payload.items) := by
  obtain ⟨es, hv, rfl⟩ := snapshot_ok_iff.mp ⟨hs, hok⟩
  obtain ⟨_, hsafe, h⟩ := bind_eq_ok.mp hrebuild
  obtain ⟨s', hs', h⟩ := bind_eq_ok.mp h
  obtain rfl := Except.ok.inj (hs.symm.trans hs')
  obtain ⟨_, -, h⟩ := bind_eq_ok.mp h
  obtain ⟨rows, hindex, h⟩ := bind_eq_ok.mp (mapError_eq_ok.mp h)
  obtain ⟨_, -, h⟩ := bind_eq_ok.mp h
  obtain ⟨identity, hidentity, h⟩ := bind_eq_ok.mp h
  obtain rfl := Except.ok.inj h
  obtain ⟨rows', hrows, hof⟩ := indexPostgresEvents_rowsOf (fun e he => hv.persisted he) hindex
  rw [List.nil_append] at hrows
  subst hrows
  have hmetadata := verifyPostgresMetadata_rebuilt hv hidentity db.metadata journalPath
  have hverify : verifyPostgresProjectedRows P rows (verifiedSnapshot P content es) = .ok () ↔
      ∀ e ∈ es, server.Keeps (.dict e.payload.items) := by
    unfold verifyPostgresProjectedRows
    rw [if_neg (show ¬ rows.length ≠ (verifiedSnapshot P content es).recordCount from
      not_not.mpr hof.length_eq)]
    exact verifyPostgresRows_eq_ok hof
  refine Iff.trans ?_ hverify
  have hfetched : ∀ metadata, fetchPostgresProjectedRows { metadata, rows } = rows := by
    intro metadata
    exact @PostgresRowsOf.fetched P server 1 es { metadata, rows } hof
  constructor
  · intro h
    obtain ⟨verified, h⟩ := h
    obtain ⟨_, -, h⟩ := bind_eq_ok.mp h
    obtain ⟨s', hs', h⟩ := bind_eq_ok.mp h
    obtain rfl := Except.ok.inj (hs.symm.trans hs')
    obtain ⟨_, -, h⟩ := bind_eq_ok.mp h
    obtain ⟨_, -, h⟩ := bind_eq_ok.mp (mapError_eq_ok.mp h)
    obtain ⟨_, hcompare, -⟩ := bind_eq_ok.mp h
    rw [hfetched] at hcompare
    exact hcompare
  · intro hcompare
    refine ⟨_, bind_eq_ok.mpr ⟨(), hsafe, bind_eq_ok.mpr ⟨_, hs, bind_eq_ok.mpr ⟨(),
      require_eq_ok.mpr hok, mapError_eq_ok.mpr (bind_eq_ok.mpr ⟨_, hmetadata,
      bind_eq_ok.mpr ⟨(), ?_, rfl⟩⟩)⟩⟩⟩⟩
    rw [hfetched]
    exact hcompare

/-- PostgreSQL, as far as numbers and times are concerned. -/
def numericServer : PostgresServer where
  toJsonb := .numeric
  timestamp := parseIsoZ
  timestamp_isoZ := parseIsoZ_isoZ

def PostgresDatabase.empty : PostgresDatabase where
  metadata := .empty
  rows := []

/-- A journal of one event with a float in its payload. -/
def floatJournal (x : Binary64) : Content :=
  (appendEvent .checksummed (.default .checksummed) none
    (sampleEvent (sampleText "a") 0 (samplePayload [(lit "x", .float x)]))).2

theorem postgres_verifies_iff_sample :
    ∃ s db', verifiedJournalSnapshot .checksummed (floatJournal (.ofDecimal false 5 (-1))) none .null
        = .ok s ∧ s.events.length = 1 ∧
      rebuildPostgresProjection .checksummed numericServer .empty (sampleText "journal")
        (lit "events") (floatJournal (.ofDecimal false 5 (-1))) = .ok db' ∧
      ((∃ verified, verifyPostgresProjectionState .checksummed db' (lit "events")
          (floatJournal (.ofDecimal false 5 (-1))) = .ok verified) ↔
        ∀ e ∈ s.events, numericServer.Keeps (.dict e.payload.items)) := by
  obtain ⟨s, hs, hok⟩ := map_eq_ok.mp (show (verifiedJournalSnapshot .checksummed
    (floatJournal (.ofDecimal false 5 (-1))) none .null).map (fun s => (s.ok, s.events.length))
      = .ok (true, 1) by decide +kernel)
  obtain ⟨db', hrebuild, -⟩ := map_eq_ok.mp (show (rebuildPostgresProjection .checksummed numericServer
    .empty (sampleText "journal") (lit "events") (floatJournal (.ofDecimal false 5 (-1)))).map
      (fun _ => ()) = .ok () by decide +kernel)
  obtain ⟨hok, hlength⟩ := Prod.mk.inj hok
  exact ⟨s, db', hs, hlength, hrebuild,
    postgres_verifies_iff .checksummed numericServer .empty db' _ _ _ s hs hok hrebuild⟩

/-- The projection of `1e16` does not verify. -/
example : (do
      let db ← rebuildPostgresProjection .checksummed numericServer .empty (sampleText "journal")
        (lit "events") (floatJournal (.ofDecimal false 1 16))
      .ok ((verifyPostgresProjectionState .checksummed db (lit "events")
        (floatJournal (.ofDecimal false 1 16))).map fun _ => ())) =
    (.ok (.error (.projectionStateError .projectionMismatch
      "postgres projection row content does not match the verified journal")) :
      Except PyError (Except PyError Unit)) := by
  decide +kernel

end ActionLineage
