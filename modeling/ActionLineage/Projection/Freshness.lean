import ActionLineage.Projection.Rebuild

/-!
# A projection of a journal that grows

A rebuild may find a database of any schema, and it may be the second of two that read the journal
at different times. What a rebuild leaves when it raises is the database as it was, up to the number
of its schema (`connect_rebuild`). Of a database that some rebuild has filled the verification says
how far it is behind, and never that it belongs to another journal (`ProjectionOf.verdict`).
-/

namespace ActionLineage

open Py

variable {P : Platform} {R : PathResolver} {fault : ℕ → Option PyError}

/-! ## Any schema -/

/-- At most the number of the schema is new: what comes before the transaction is written at once. -/
def SchemaTouched (db db' : ProjectionDatabase) : Prop :=
  db' = db ∨ db.userVersion < PROJECTION_SCHEMA_VERSION ∧
    db' = { db with userVersion := PROJECTION_SCHEMA_VERSION }

/-- Bringing a schema up to date with a script that changes neither rows nor metadata. -/
theorem upgrade_run {fs : List (ProjectionDatabase → ProjectionDatabase)} (hfs : ∀ f ∈ fs, f = id)
    {c : Connection ProjectionDatabase} {db : ProjectionDatabase} (hopen : c.pending = none)
    (hdb : c.committed = db) (hversion : db.userVersion < PROJECTION_SCHEMA_VERSION) :
    let run := (do
      Connection.executeScript fault fs
      setUserVersionOn fault PROJECTION_SCHEMA_VERSION
      setMetadataOn fault [(lit "schema_version", lit "2")] : OnDatabase Unit) c
    SchemaTouched db run.2.committed ∧
      ∀ done, run.1 = .ok done → ensureSchema db = .ok run.2.current := by
  -- the script runs outside a transaction and changes neither rows nor metadata
  have hscript : Connection.Outside (· = db) (Connection.executeScript fault fs) (· = db)
      fun _ d => d = db := by
    refine Connection.Outside.executeScript (fun d hd => hd) fun f hf d hd => ?_
    rw [hfs f hf]
    exact hd
  obtain ⟨hopen₁, hraise₁, hpost₁⟩ := hscript c hopen hdb
  rcases hrun₁ : Connection.executeScript fault fs c with ⟨result, c₁⟩
  rw [hrun₁] at hopen₁ hraise₁ hpost₁
  cases result with
  | error e =>
    rw [Raising.bind_of_error hrun₁]
    exact ⟨.inl (hraise₁ e rfl), fun _ h => by cases h⟩
  | ok done =>
  rw [Raising.bind_of_ok hrun₁]
  have hnumber : Connection.Outside (· = db) (setUserVersionOn fault PROJECTION_SCHEMA_VERSION)
      (· = db) fun _ d => d = { db with userVersion := PROJECTION_SCHEMA_VERSION } := by
    refine Connection.Outside.define (fun d hd => hd) fun d hd => ?_
    rw [hd]
  obtain ⟨hopen₂, hraise₂, hpost₂⟩ := hnumber c₁ hopen₁ (hpost₁ done rfl)
  rcases hrun₂ : setUserVersionOn fault PROJECTION_SCHEMA_VERSION c₁ with ⟨result, c₂⟩
  rw [hrun₂] at hopen₂ hraise₂ hpost₂
  cases result with
  | error e =>
    rw [Raising.bind_of_error hrun₂]
    exact ⟨.inl (hraise₂ e rfl), fun _ h => by cases h⟩
  | ok done' =>
  rw [Raising.bind_of_ok hrun₂]
  have hcommitted := hpost₂ done' rfl
  have hcurrent : c₂.current = { db with userVersion := PROJECTION_SCHEMA_VERSION } := by
    unfold Connection.current
    rw [hopen₂]
    exact hcommitted
  -- the metadata opens the transaction, which is not committed here
  have hmetadata : Connection.Within { db with userVersion := PROJECTION_SCHEMA_VERSION } _
      (setMetadataOn fault [(lit "schema_version", lit "2")]) _ :=
    within_setMetadata { db with userVersion := PROJECTION_SCHEMA_VERSION } _ db.metadata
  obtain ⟨hkeep, hpost⟩ := hmetadata c₂ hcommitted hcurrent
  refine ⟨.inr ⟨hversion, hkeep⟩, fun done'' h => ?_⟩
  rw [(hpost done'' h).1]
  exact if_pos hversion

/-- `ensure_schema` outside a transaction. -/
theorem ensureSchema_run {c : Connection ProjectionDatabase} {db : ProjectionDatabase}
    (hopen : c.pending = none) (hdb : c.committed = db) :
    SchemaTouched db (ensureSchemaOn fault c).2.committed ∧
      ∀ done, (ensureSchemaOn fault c).1 = .ok done →
        ensureSchema db = .ok (ensureSchemaOn fault c).2.current := by
  have hcurrent : c.current = db := by
    unfold Connection.current
    rw [hopen]
    exact hdb
  unfold ensureSchemaOn
  rcases Connection.statement_run fault c with ⟨e, hread⟩ | hread
  · have hselect : Connection.select fault (·.userVersion) c
        = (.error e, { c with statements := c.statements + 1 }) := Raising.bind_of_error hread
    rw [Raising.bind_of_error hselect]
    exact ⟨.inl hdb, fun _ h => by cases h⟩
  have hselect : Connection.select fault (·.userVersion) c
      = (.ok db.userVersion, { c with statements := c.statements + 1 }) := by
    refine (Raising.bind_of_ok hread).trans ?_
    rw [← hcurrent]
    rfl
  rw [Raising.bind_of_ok hselect]
  split_ifs with hnew hold
  · refine upgrade_run (fun f hf => ?_) hopen hdb (by rw [hnew]; decide)
    simpa using hf
  · refine upgrade_run (fun f hf => ?_) hopen hdb (by rw [hold]; decide)
    simpa using hf
  · refine ⟨.inl hdb, fun done h => ?_⟩
    have hcurrent' : db.userVersion = PROJECTION_SCHEMA_VERSION :=
      beq_iff_eq.mp (require_eq_ok.mp h)
    unfold ensureSchema
    rw [if_neg (by rw [hcurrent']; exact lt_irrefl _), if_pos hcurrent']
    exact congrArg Except.ok hcurrent.symm

variable {db : ProjectionDatabase} {path resolved : Str} {content : Content}
  {snapshot : VerifiedJournalSnapshot}

theorem rebuildBlock_run {c : Connection ProjectionDatabase} (hopen : c.pending = none)
    (hdb : c.committed = db) (hpath : R.resolve path = .ok resolved)
    (hsnapshot : verifiedJournalSnapshot P content none .null = .ok snapshot)
    (hok : snapshot.ok = true) :
    SchemaTouched db (rebuildBlock P fault resolved snapshot c).2.committed ∧
      ∀ n, (rebuildBlock P fault resolved snapshot c).1 = .ok n →
        rebuildProjectionInto P R db path content
          = .ok (rebuildBlock P fault resolved snapshot c).2.current := by
  obtain ⟨htouched, hschema⟩ := @ensureSchema_run fault c db hopen hdb
  rcases hrun : ensureSchemaOn fault c with ⟨result, c₁⟩
  rw [hrun] at htouched hschema
  cases result with
  | error e =>
    have hraise : rebuildBlock P fault resolved snapshot c = (.error e, c₁) :=
      Raising.bind_of_error hrun
    rw [hraise]
    exact ⟨htouched, fun _ h => by cases h⟩
  | ok done =>
    obtain ⟨hcommitted, hreturn⟩ := rebuildBlock_of_schema (P := P) hrun rfl (hschema done rfl) hpath
      hsnapshot hok
    rw [hcommitted]
    exact ⟨htouched, fun n hn => (hreturn n hn).2.1⟩

/-- A rebuild of a database of any schema: one that raises leaves it as it was, up to the number of
the schema. -/
theorem connect_rebuild (fault : ℕ → Option PyError) (hpath : R.resolve path = .ok resolved)
    (hsnapshot : verifiedJournalSnapshot P content none .null = .ok snapshot)
    (hok : snapshot.ok = true) :
    let run := connect fault (rebuildBlock P fault resolved snapshot) { committed := db }
    (∀ exc, run.1 = .error exc → SchemaTouched db run.2.committed) ∧
      ∀ n, run.1 = .ok n → rebuildProjectionInto P R db path content = .ok run.2.committed := by
  unfold connect
  rcases Connection.statement_run fault { committed := db } with ⟨e, hfile⟩ | hfile
  · rw [Raising.bind_of_error hfile]
    exact ⟨fun _ _ => .inl rfl, fun _ h => by cases h⟩
  rw [Raising.bind_of_ok hfile]
  rcases Connection.statement_run fault { committed := db, statements := 0 + 1 }
    with ⟨e, hpragma⟩ | hpragma
  · rw [Raising.bind_of_error hpragma]
    exact ⟨fun _ _ => .inl rfl, fun _ h => by cases h⟩
  rw [Raising.bind_of_ok hpragma]
  obtain ⟨htouched, hreturn⟩ := @rebuildBlock_run P R fault db path resolved content snapshot
    { committed := db, statements := 0 + 1 + 1 } rfl rfl hpath hsnapshot hok
  unfold Connection.transaction
  rcases hrun : rebuildBlock P fault resolved snapshot { committed := db, statements := 0 + 1 + 1 }
    with ⟨result, c'⟩
  rw [hrun] at htouched hreturn
  cases result with
  | error e =>
    rw [Raising.bind_of_error hrun]
    exact ⟨fun _ _ => htouched, fun _ h => by cases h⟩
  | ok n =>
    rw [Raising.bind_of_ok hrun]
    cases hcommit : fault c'.statements with
    | some e =>
      rw [Raising.bind_of_error (Connection.commit_of_fault hcommit)]
      exact ⟨fun _ _ => htouched, fun _ h => by cases h⟩
    | none =>
      rw [Raising.bind_of_ok (Connection.commit_of_none hcommit)]
      exact ⟨fun _ h => (by cases h), fun _ _ => hreturn n rfl⟩

/-! ## A journal that grows -/

/-- The journal held `content₀` with the events `es₀` before it held `content` with `es`. -/
structure Earlier (P : Platform) (content₀ : Content) (es₀ : List EventEnvelope)
    (content : Content) (es : List EventEnvelope) : Prop where
  verified : Verified P content₀ es₀
  starts : es₀ <+: es
  same : es₀ = es → content₀ = content

variable {content₀ content' : Content} {es₀ es new : List EventEnvelope}

theorem earlier_refl (hv : Verified P content es) : Earlier P content es content es :=
  ⟨hv, List.prefix_rfl, fun _ => rfl⟩

/-- A journal is only written where it gets events. -/
theorem Earlier.extend (h : Earlier P content₀ es₀ content es)
    (hkept : new = [] → content' = content) : Earlier P content₀ es₀ content' (es ++ new) where
  verified := h.verified
  starts := h.starts.trans (List.prefix_append es new)
  same hsame := by
    -- a prefix that is the whole leaves no room for new events
    have hlength := h.starts.length_le
    rw [hsame, List.length_append] at hlength
    have hnew : new = [] := List.eq_nil_of_length_eq_zero (by omega)
    rw [hkept hnew]
    apply h.same
    rw [hsame, hnew, List.append_nil]

/-- A rebuild has filled the database from an earlier journal. -/
def ProjectionOf (P : Platform) (R : PathResolver) (db : ProjectionDatabase) (content₀ : Content)
    (es₀ : List EventEnvelope) : Prop :=
  ∃ source identity, Rebuilt P R db content₀ es₀ source identity

/-- The table holds the rows of the events. -/
def HoldsRows (P : Platform) (db : ProjectionDatabase) (es : List EventEnvelope) : Prop :=
  ∃ rows, RowsOf P 1 es rows ∧ db.events.Perm (rows.map EventRow.stored)

theorem ProjectionOf.rows (h : ProjectionOf P R db content₀ es₀) : HoldsRows P db es₀ := by
  obtain ⟨source, identity, hrebuilt⟩ := h
  obtain ⟨rows, hrows, hdb⟩ := hrebuilt.rows
  refine ⟨rows, hrows, ?_⟩
  rw [← hdb]
  exact (List.perm_insertionSort _ db.events).symm

/-- The verification finds the database healthy exactly when nothing has been appended since. -/
theorem ProjectionOf.verdict (hinj : Function.Injective P.sha256Hex)
    (h : ProjectionOf P R db content₀ es₀) (hearlier : Earlier P content₀ es₀ content es)
    (hv : Verified P content es) :
    (es₀ = es → ∃ v, verifyProjectionState P R (some db) content = .ok v) ∧
      (es₀ ≠ es → es.length ≠ 10 ^ maxIntDigits →
        ∃ message, verifyProjectionState P R (some db) content
          = .error (.projectionStateError .projectionStale message)) := by
  obtain ⟨source, identity, hrebuilt⟩ := h
  constructor
  · intro hsame
    obtain rfl := hearlier.same hsame
    subst hsame
    obtain ⟨v, hverify, hsnapshot⟩ := hrebuilt.verify_self hv
    refine ⟨v, ?_⟩
    unfold verifyProjectionState
    simp only [hverify, Except.mapError, bind, Except.bind, recheck_ok hv hsnapshot]
  · intro hne hcount
    have hlt : es.length < 10 ^ maxIntDigits := lt_of_le_of_ne hv.length_le hcount
    obtain ⟨expected, hexpected⟩ := (journalSourceIdentity_isOk_iff hv).mpr hlt
    -- without collisions, another journal has another source identity
    have hother : source ≠ expected := by
      rintro rfl
      exact hne (journalSourceIdentity_injective hinj hearlier.verified hv hrebuilt.sourceOf hexpected)
    refine ⟨"projection matches a verified prefix of the source journal; rebuild required", ?_⟩
    have hmatches : projectionMatchesVerifiedJournalPrefix P db (verifiedSnapshot P content es)
        es₀.length (hashCell (terminalHash none es₀)) = .ok true :=
      hrebuilt.matches_of_prefix hearlier.starts
    unfold verifyProjectionState
    simp only [hrebuilt.verify_other hearlier.verified hv hexpected hother, hmatches, bind,
      Except.bind, if_true, Except.mapError, projectionStateFailure]

/-- No rebuild has filled the database yet. -/
structure Unfilled (db : ProjectionDatabase) : Prop where
  version : db.userVersion ≤ PROJECTION_SCHEMA_VERSION
  metadata : db.metadata = []
  events : db.events = []

theorem unfilled_empty : Unfilled .empty := ⟨by decide, rfl, rfl⟩

theorem verifyProjectionState_of_error {exc : PyError}
    (h : verifyProjectionStateOnConnection P R db content = .error exc) :
    verifyProjectionState P R (some db) content = .error (projectionStateFailure exc) := by
  unfold verifyProjectionState
  simp only [h, Except.mapError, bind, Except.bind]

theorem Unfilled.verdict (h : Unfilled db) (content : Content) :
    ∃ message, verifyProjectionState P R (some db) content
      = .error (.projectionStateError .projectionRebuildRequired message) := by
  -- a current schema is refused for its empty metadata, any other for its number
  by_cases hcurrent : db.userVersion = PROJECTION_SCHEMA_VERSION
  · have hschema : validateSchema db = .ok () := by
      unfold validateSchema
      rw [hcurrent]
      rfl
    have hpath : projectionSourcePathHint R db.metadata
        = .error (.valueError "projection metadata is missing source_journal_path") := by
      rw [h.metadata]
      rfl
    have hraise : verifyProjectionStateOnConnection P R db content
        = .error (.valueError "projection metadata is missing source_journal_path") := by
      unfold verifyProjectionStateOnConnection
      simp only [hschema, hpath, bind, Except.bind]
    rw [verifyProjectionState_of_error hraise]
    exact ⟨_, rfl⟩
  · have hschema : ∃ message, validateSchema db = .error (.projectionSchemaError message) := by
      unfold validateSchema
      split
      · exact ⟨_, rfl⟩
      · refine ⟨"unsupported projection schema version", ?_⟩
        simp [require, hcurrent]
    obtain ⟨message, hschema⟩ := hschema
    have hraise : verifyProjectionStateOnConnection P R db content
        = .error (.projectionSchemaError message) := by
      unfold verifyProjectionStateOnConnection
      simp only [hschema, bind, Except.bind]
    rw [verifyProjectionState_of_error hraise]
    exact ⟨_, rfl⟩

/-- The database is new, or a projection of the journal as it is or was. -/
def BelongsTo (P : Platform) (R : PathResolver) (db : ProjectionDatabase) (content : Content)
    (es : List EventEnvelope) : Prop :=
  Unfilled db ∨ ∃ content₀ es₀, Earlier P content₀ es₀ content es ∧ ProjectionOf P R db content₀ es₀

theorem BelongsTo.extend (h : BelongsTo P R db content es) (hkept : new = [] → content' = content) :
    BelongsTo P R db content' (es ++ new) := by
  rcases h with hnew | ⟨content₀, es₀, hearlier, hdb⟩
  · exact .inl hnew
  · exact .inr ⟨content₀, es₀, hearlier.extend hkept, hdb⟩

theorem BelongsTo.touched {db' : ProjectionDatabase} (h : BelongsTo P R db content es)
    (htouched : SchemaTouched db db') : BelongsTo P R db' content es := by
  rcases htouched with rfl | ⟨hold, rfl⟩
  · exact h
  · rcases h with hnew | ⟨content₀, es₀, -, source, identity, hrebuilt⟩
    · exact .inl ⟨le_refl _, hnew.metadata, hnew.events⟩
    · rw [hrebuilt.userVersion] at hold
      exact absurd hold (lt_irrefl _)

/-- What the verification says of a database that belongs to the journal. -/
theorem BelongsTo.verdict (hinj : Function.Injective P.sha256Hex) (h : BelongsTo P R db content es)
    (hv : Verified P content es) (hcount : es.length ≠ 10 ^ maxIntDigits) :
    ((∃ v, verifyProjectionState P R (some db) content = .ok v) ∧ HoldsRows P db es) ∨
    ((∃ message, verifyProjectionState P R (some db) content
        = .error (.projectionStateError .projectionStale message)) ∧
      ∃ es₀, es₀ <+: es ∧ es₀ ≠ es ∧ HoldsRows P db es₀) ∨
    ((∃ message, verifyProjectionState P R (some db) content
        = .error (.projectionStateError .projectionRebuildRequired message)) ∧ Unfilled db) := by
  rcases h with hnew | ⟨content₀, es₀, hearlier, hdb⟩
  · exact .inr (.inr ⟨hnew.verdict content, hnew⟩)
  · obtain ⟨hhealthy, hstale⟩ := hdb.verdict hinj hearlier hv
    by_cases hsame : es₀ = es
    · have hrows := hdb.rows
      rw [hsame] at hrows
      exact .inl ⟨hhealthy hsame, hrows⟩
    · exact .inr (.inl ⟨hstale hsame hcount, es₀, hearlier.starts, hsame, hdb.rows⟩)

end ActionLineage
