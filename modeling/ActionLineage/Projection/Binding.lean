import ActionLineage.Projection.StateFacts

/-!
# What a healthy projection is bound to

`Rebuilt` is the state a rebuild leaves behind. Against a second verified journal the stored source
identity decides: it is the identity of the journal exactly when the records are the same
(`Rebuilt.verify_self`), and otherwise the prefix comparison tells a journal that has grown from any
other (`Rebuilt.verify_other`).
-/

namespace ActionLineage

open Py

variable {P : Platform} {R : PathResolver}

/-- The state of the database after a rebuild from a journal of the events `es`. -/
structure Rebuilt (P : Platform) (R : PathResolver) (db : ProjectionDatabase) (content : Content)
    (es : List EventEnvelope) (source identity : Str) : Prop where
  userVersion : db.userVersion = PROJECTION_SCHEMA_VERSION
  path : ∃ q, metadataGet db.metadata "source_journal_path" = .text q ∧ q ≠ [] ∧
    R.resolve q = .ok q
  sourceOf : journalSourceIdentity P (verifiedSnapshot P content es) = .ok source
  storedSource : metadataGet db.metadata "source_journal_identity" = .text source
  storedVersion : metadataGet db.metadata "source_journal_identity_version"
    = .text JOURNAL_SOURCE_IDENTITY_VERSION
  storedDigest : metadataGet db.metadata "source_journal_sha256"
    = .text ((content.map P.sha256Digest).getD [])
  identityOf : projectionIdentity P source ((content.map P.sha256Digest).getD []) es.length
    (optText (terminalHash none es)) PROJECTION_SCHEMA_VERSION = .ok identity
  storedIdentity : metadataGet db.metadata "projection_identity" = .text identity
  records : metadataGet db.metadata "records_indexed" = .text (natText es.length)
  lastHash : metadataGet db.metadata "last_event_hash"
    = .text ((terminalHash none es).elim [] Subtype.val)
  rows : ∃ rows, RowsOf P 1 es rows ∧ projectedRows db = rows.map EventRow.stored

/-- A schema that is kept or brought up to date has the current version. -/
theorem ensureSchema_userVersion {db db' : ProjectionDatabase} (h : ensureSchema db = .ok db') :
    db'.userVersion = PROJECTION_SCHEMA_VERSION := by
  unfold ensureSchema at h
  split_ifs at h with hold hcurrent
  · obtain rfl := Except.ok.inj h
    rfl
  · obtain rfl := Except.ok.inj h
    exact hcurrent

theorem rebuilt_of_rebuildProjectionInto {db db' : ProjectionDatabase} {path : Str}
    {content : Content} (h : rebuildProjectionInto P R db path content = .ok db') :
    ∃ es source identity, Verified P content es ∧ Rebuilt P R db' content es source identity := by
  obtain ⟨resolved, hresolve, h⟩ := bind_eq_ok.mp h
  obtain ⟨s, hs, h⟩ := bind_eq_ok.mp h
  obtain ⟨_, hok, h⟩ := bind_eq_ok.mp h
  obtain ⟨es, hv, rfl⟩ := snapshot_ok_iff.mp ⟨hs, require_eq_ok.mp hok⟩
  obtain ⟨db₁, hschema, h⟩ := bind_eq_ok.mp h
  obtain ⟨rows, hindex, h⟩ := bind_eq_ok.mp h
  obtain ⟨_, -, h⟩ := bind_eq_ok.mp h
  obtain ⟨source, hsource, h⟩ := bind_eq_ok.mp h
  obtain ⟨identity, hidentity, h⟩ := bind_eq_ok.mp h
  obtain ⟨_, -, h⟩ := bind_eq_ok.mp h
  obtain rfl := Except.ok.inj h
  obtain ⟨rows', hrows, hrowsOf⟩ := indexEvents_rowsOf (by simp) hindex
  obtain ⟨hne, hagain⟩ := R.resolve_resolved path resolved hresolve
  rw [List.nil_append] at hrows
  subst hrows
  refine ⟨es, source, identity, hv, ?_⟩
  constructor
  case userVersion => exact (ensureSchema_userVersion hschema :)
  case sourceOf => exact hsource
  case identityOf => exact hidentity
  case rows => exact ⟨rows, hrowsOf, hrowsOf.projectedRows rfl⟩
  case path =>
    refine ⟨resolved, ?_, hne, hagain⟩
    simp (disch := decide) only [setMetadata, List.foldl_cons, List.foldl_nil,
      metadataGet_setMetadataKey_self, metadataGet_setMetadataKey_of_ne]
  case storedSource | storedVersion | storedIdentity =>
    simp (disch := decide) only [setMetadata, List.foldl_cons, List.foldl_nil,
      metadataGet_setMetadataKey_self, metadataGet_setMetadataKey_of_ne]
  case storedDigest | records | lastHash =>
    simp (disch := decide) only [setMetadata, List.foldl_cons, List.foldl_nil,
      metadataGet_setMetadataKey_self, metadataGet_setMetadataKey_of_ne]
    rfl

/-- A verified journal with distinct event ids is projected into any database of a known schema. -/
theorem exists_rebuild {db : ProjectionDatabase} {path resolved : Str} {content : Content}
    {es : List EventEnvelope} (hv : Verified P content es) (hids : (es.map (·.eventId)).Nodup)
    (hcount : es.length < 10 ^ maxIntDigits) (hdb : db.userVersion ≤ PROJECTION_SCHEMA_VERSION)
    (hpath : R.resolve path = .ok resolved) (hresolved : SurrogateFree resolved) :
    ∃ db', rebuildProjectionInto P R db path content = .ok db' := by
  obtain ⟨db₁, hschema⟩ : ∃ db₁, ensureSchema db = .ok db₁ := by
    unfold ensureSchema
    split_ifs with hold hcurrent
    · exact ⟨_, rfl⟩
    · exact ⟨_, rfl⟩
    · omega
  obtain ⟨rows, hrows, -⟩ := rebuildProjection_of_verified hv hids
  obtain ⟨s, hs, hrows⟩ := bind_eq_ok.mp hrows
  obtain rfl := Except.ok.inj (hs.symm.trans (snapshot_of_verified hv))
  obtain ⟨_, -, hrows⟩ := bind_eq_ok.mp hrows
  obtain ⟨_, hindex, -⟩ := bind_eq_ok.mp hrows
  obtain ⟨source, hsource⟩ := (journalSourceIdentity_isOk_iff hv).mpr hcount
  obtain ⟨identity, hidentity⟩ := exists_projectionIdentity hv hcount hsource
  obtain ⟨bytes, hbytes⟩ : ∃ b, utf8Encode resolved = some b := by
    apply Option.ne_none_iff_exists'.mp
    intro hnone
    exact utf8Encode_eq_none.mp hnone hresolved
  refine ⟨_, bind_eq_ok.mpr ⟨resolved, hpath, bind_eq_ok.mpr ⟨_, hs, bind_eq_ok.mpr ⟨(), rfl,
    bind_eq_ok.mpr ⟨db₁, hschema, bind_eq_ok.mpr ⟨_, hindex, bind_eq_ok.mpr ⟨(),
    require_eq_ok.mpr (decide_eq_true rfl), bind_eq_ok.mpr ⟨source, hsource,
    bind_eq_ok.mpr ⟨identity, hidentity, bind_eq_ok.mpr ⟨bytes, ?_, rfl⟩⟩⟩⟩⟩⟩⟩⟩⟩⟩
  rw [hbytes]
  rfl

theorem isSpace_of_digit {c : CodePoint} (h : isDigit c = true) : isRegexSpace c = false := by
  simp only [isDigit, Bool.and_eq_true, decide_eq_true_eq] at h
  simp only [isRegexSpace, Bool.or_eq_false_iff, Bool.and_eq_false_imp, decide_eq_true_eq,
    decide_eq_false_iff_not, beq_eq_false_iff_ne, ne_eq]
  omega

theorem namespacedDigest_truthy {version d : Str} {preimage : Obj}
    (h : namespacedDigest P version preimage = .ok d) : (SqlValue.text d).truthy = true := by
  obtain ⟨doc, -, rfl⟩ := namespacedDigest_eq_ok.mp h
  have hne : version ++ lit ":sha256:" ++ P.sha256Hex doc ≠ [] := by
    have hmid : lit ":sha256:" ≠ [] := by decide
    simp [hmid]
  simpa [SqlValue.truthy, SqlValue.toValue, Value.truthy] using hne

/-- The identities of this version do not look like those of the path-based ones. -/
theorem isPrefixOf_namespacedDigest {old version d : Str} {preimage : Obj}
    (hold : ¬ old <+: version) (hlen : old.length ≤ version.length)
    (h : namespacedDigest P version preimage = .ok d) : old.isPrefixOf d = false := by
  obtain ⟨doc, -, rfl⟩ := namespacedDigest_eq_ok.mp h
  rw [← Bool.not_eq_true, List.isPrefixOf_iff_prefix, List.append_assoc]
  intro hstarts
  exact hold (List.prefix_of_prefix_length_le hstarts (List.prefix_append _ _) hlen)

namespace Rebuilt

variable {db : ProjectionDatabase} {content : Content} {es : List EventEnvelope}
  {source identity : Str}

theorem recordsIndexed (h : Rebuilt P R db content es source identity)
    (hv : Verified P content es) : metadataInt P db.metadata "records_indexed" = .ok es.length := by
  have hcount := (journalSourceIdentity_isOk_iff hv).mp ⟨source, h.sourceOf⟩
  rw [← natText_length_le_iff (by decide)] at hcount
  have hread := @intOfText_natText P isRegexSpace (fun c => isSpace_of_digit) es.length hcount
  unfold metadataInt
  rw [h.records]
  simp only [hread, Option.elim_some, bind, Except.bind]
  rw [if_neg (by omega)]
  rfl

theorem lastEventHash (h : Rebuilt P R db content es source identity) :
    metadataHash db.metadata "last_event_hash" = .ok (hashCell (terminalHash none es)) := by
  unfold metadataHash
  rw [h.lastHash]
  cases hterm : terminalHash none es with
  | none => rfl
  | some t =>
    have htruthy : (SqlValue.text t.val).truthy = true := by
      simpa [SqlValue.truthy, SqlValue.toValue, Value.truthy] using t.property
    simp only [Option.elim_some, htruthy, if_true]
    rfl

theorem pathHint (h : Rebuilt P R db content es source identity) :
    ∃ q, projectionSourcePathHint R db.metadata = .ok q := by
  obtain ⟨q, hq, hne, hresolve⟩ := h.path
  have htruthy : (SqlValue.text q).truthy = true := by
    simpa [SqlValue.truthy, SqlValue.toValue, Value.truthy] using hne
  refine ⟨q, ?_⟩
  unfold projectionSourcePathHint
  simp only [hq, htruthy, require, if_true, bind, Except.bind, requireText, hresolve]

theorem schema_ok (h : Rebuilt P R db content es source identity) : validateSchema db = .ok () := by
  unfold validateSchema
  rw [h.userVersion]
  rfl

/-- Against a journal with another source identity the prefix comparison decides. -/
theorem verify_other (h : Rebuilt P R db content es source identity) (hv : Verified P content es)
    {content' : Content} {es' : List EventEnvelope} (hv' : Verified P content' es')
    {expected : Str}
    (hexpected : journalSourceIdentity P (verifiedSnapshot P content' es') = .ok expected)
    (hne : source ≠ expected) :
    verifyProjectionStateOnConnection P R db content' = (do
      if ← projectionMatchesVerifiedJournalPrefix P db (verifiedSnapshot P content' es') es.length
          (hashCell (terminalHash none es)) then
        .error (.projectionStateError .projectionStale
          "projection matches a verified prefix of the source journal; rebuild required")
      else
        .error (.projectionStateError .projectionMismatch
          "projection source journal identity does not match the verified journal")) := by
  obtain ⟨q, hq⟩ := h.pathHint
  have hidentity := namespacedDigest_truthy h.identityOf
  have hsource := namespacedDigest_truthy h.sourceOf
  have hlocal : (lit "local-file:").isPrefixOf source = false :=
    isPrefixOf_namespacedDigest (by decide +kernel) (by decide +kernel) h.sourceOf
  have hversion : (SqlValue.text JOURNAL_SOURCE_IDENTITY_VERSION != .null) = true := rfl
  have hcurrent : (SqlValue.text JOURNAL_SOURCE_IDENTITY_VERSION
    == .text JOURNAL_SOURCE_IDENTITY_VERSION) = true := by simp
  have hok : (verifiedSnapshot P content' es').ok = true := rfl
  unfold verifyProjectionStateOnConnection
  simp only [h.schema_ok, hq, h.storedIdentity, hidentity, snapshot_of_verified hv', hok,
    h.recordsIndexed hv, h.lastEventHash, hexpected, h.storedSource, hsource, requireText, hlocal,
    h.storedVersion, hversion, hcurrent, require, if_true, bind, Except.bind, hne, ne_eq,
    not_false_eq_true, Bool.not_false]

theorem identity_ok (h : Rebuilt P R db content es source identity) :
    verifyProjectionIdentity P (.text identity) source ((content.map P.sha256Digest).getD [])
      es.length (hashCell (terminalHash none es)).toValue = .ok () := by
  have hlegacy : (lit "sqlite-file:").isPrefixOf identity = false :=
    isPrefixOf_namespacedDigest (by decide +kernel) (by decide +kernel) h.identityOf
  have hlast : (hashCell (terminalHash none es)).toValue = optText (terminalHash none es) := by
    cases terminalHash none es <;> rfl
  unfold verifyProjectionIdentity
  simp only [requireText, hlegacy, hlast, h.identityOf, require, bind, Except.bind, Bool.not_false,
    if_true, beq_self_eq_true]

theorem rows_ok (h : Rebuilt P R db content es source identity) {content' : Content}
    {es' : List EventEnvelope} (hstarts : es <+: es') :
    verifyProjectedRowValues P (projectedRows db) (verifiedSnapshot P content' es') es.length
      = .ok () := by
  obtain ⟨rows, hrows, hdb⟩ := h.rows
  apply (verifyProjectedRowValues_eq_ok hstarts.length_le).mpr
  refine ⟨rows, ?_, hdb⟩
  have htake : es'.take es.length = es := (List.prefix_iff_eq_take.mp hstarts).symm
  show RowsOf P 1 (es'.take es.length) rows
  rwa [htake]

/-- Against its own journal the projection is healthy. -/
theorem verify_self (h : Rebuilt P R db content es source identity) (hv : Verified P content es) :
    ∃ v, verifyProjectionStateOnConnection P R db content = .ok v ∧
      v.journalSnapshot = verifiedSnapshot P content es := by
  obtain ⟨q, hq⟩ := h.pathHint
  have hidentity := namespacedDigest_truthy h.identityOf
  have hsource := namespacedDigest_truthy h.sourceOf
  have hlocal : (lit "local-file:").isPrefixOf source = false :=
    isPrefixOf_namespacedDigest (by decide +kernel) (by decide +kernel) h.sourceOf
  have hversion : (SqlValue.text JOURNAL_SOURCE_IDENTITY_VERSION != .null) = true := rfl
  have hcurrent : (SqlValue.text JOURNAL_SOURCE_IDENTITY_VERSION
    == .text JOURNAL_SOURCE_IDENTITY_VERSION) = true := by simp
  have hok : (verifiedSnapshot P content es).ok = true := rfl
  have hdigest : (verifiedSnapshot P content es).journalSha256.getD []
    = (content.map P.sha256Digest).getD [] := rfl
  have hcount : (verifiedSnapshot P content es).recordCount = es.length := rfl
  have hterm : (verifiedSnapshot P content es).terminalHash = terminalHash none es := rfl
  have hpresent : (SqlValue.text ((content.map P.sha256Digest).getD []) != .null) = true := rfl
  unfold verifyProjectionStateOnConnection
  simp only [h.schema_ok, hq, h.storedIdentity, hidentity, snapshot_of_verified hv, hok,
    h.recordsIndexed hv, h.lastEventHash, h.sourceOf, h.storedSource, hsource, requireText, hlocal,
    h.storedVersion, hversion, hcurrent, require, if_true, bind, Except.bind, ne_eq,
    not_true_eq_false, if_false, Bool.not_false, hdigest, hcount, hterm, h.storedDigest, hpresent,
    beq_self_eq_true, Bool.and_self, h.identity_ok, h.rows_ok List.prefix_rfl]
  exact ⟨_, rfl, rfl⟩

end Rebuilt

/-! ## The prefix comparison -/

theorem hashCell_injective : Function.Injective hashCell := by
  intro a b h
  cases a <;> cases b <;> simp_all [hashCell, SqlValue.ofOption, textCell, Subtype.ext_iff]

/-- The hash the comparison expects after `n` records. -/
theorem terminalHash_take {es : List EventEnvelope} {n : ℕ} (hn : n ≤ es.length) :
    terminalHash none (es.take n)
      = if n = 0 then none else es[n - 1]?.bind (·.integrity.eventHash) := by
  rw [terminalHash, HashChain.terminal_none]
  by_cases hzero : n = 0
  · rw [if_pos hzero, hzero, List.take_zero]
    rfl
  · rw [if_neg hzero, List.getLast?_eq_getElem?, List.length_take, Nat.min_eq_left hn,
      List.getElem?_take_of_lt (by omega)]

/-- A run of records that ends in the hash of an initial part of another is that part. -/
theorem take_eq_of_terminal (hinj : Function.Injective P.sha256Hex) {content content' : Content}
    {es es' : List EventEnvelope} (hv : Verified P content es) (hv' : Verified P content' es')
    (hlen : es.length ≤ es'.length)
    (hterm : terminalHash none es = terminalHash none (es'.take es.length)) :
    es = es'.take es.length := by
  have hlinked := hv'.linked
  rw [← List.take_append_drop es.length es', HashChain.linked_append] at hlinked
  apply HashChain.eq_of_terminal_eq _ _ (eq_of_eventHash hinj) hv.linked hlinked.1 hv.forall_event
    (fun e he => hv'.forall_event e (List.mem_of_mem_take he)) _ hterm
  rw [List.length_take, Nat.min_eq_left hlen]

namespace Rebuilt

variable {db : ProjectionDatabase} {content content' : Content} {es es' : List EventEnvelope}
  {source identity : Str}

theorem matches_of_prefix (h : Rebuilt P R db content es source identity) (hstarts : es <+: es') :
    projectionMatchesVerifiedJournalPrefix P db (verifiedSnapshot P content' es') es.length
      (hashCell (terminalHash none es)) = .ok true := by
  have htake : es'.take es.length = es := (List.prefix_iff_eq_take.mp hstarts).symm
  have hlast := terminalHash_take hstarts.length_le
  rw [htake] at hlast
  obtain ⟨rows, hrows, hdb⟩ := h.rows
  have hcount : (projectedRows db).length = es.length := by
    rw [hdb, List.length_map, hrows.length_eq]
  have hshort : ¬ (verifiedSnapshot P content' es').recordCount < es.length :=
    Nat.not_lt.mpr hstarts.length_le
  unfold projectionMatchesVerifiedJournalPrefix
  rw [if_neg hshort]
  show (if hashCell (terminalHash none es) ≠ hashCell (if es.length = 0 then none
    else es'[es.length - 1]?.bind (·.integrity.eventHash)) then Except.ok false else _) = _
  rw [← hlast, if_neg (not_not.mpr rfl), if_neg (not_not.mpr hcount), h.rows_ok hstarts]

theorem matches_of_not_prefix (hinj : Function.Injective P.sha256Hex) (hv : Verified P content es)
    (hv' : Verified P content' es') (hstarts : ¬ es <+: es') :
    projectionMatchesVerifiedJournalPrefix P db (verifiedSnapshot P content' es') es.length
      (hashCell (terminalHash none es)) = .ok false := by
  unfold projectionMatchesVerifiedJournalPrefix
  by_cases hshort : (verifiedSnapshot P content' es').recordCount < es.length
  · rw [if_pos hshort]
  rw [if_neg hshort]
  have hlen : es.length ≤ es'.length := Nat.not_lt.mp hshort
  -- the same hash at the same place would make it a prefix
  have hdiffer : hashCell (terminalHash none es) ≠ hashCell (if es.length = 0 then none
      else es'[es.length - 1]?.bind (·.integrity.eventHash)) := by
    intro hsame
    have hterm := hashCell_injective hsame
    rw [← terminalHash_take hlen] at hterm
    apply hstarts
    rw [take_eq_of_terminal hinj hv hv' hlen hterm]
    exact List.take_prefix _ _
  exact if_pos hdiffer

end Rebuilt

/-! ## Healthy states -/

theorem recheck_ok {content : Content} {es : List EventEnvelope} (hv : Verified P content es)
    {v : VerifiedProjectionSnapshot} (hsnapshot : v.journalSnapshot = verifiedSnapshot P content es) :
    recheckTerminalJournalState P content v = .ok () := by
  have hexpected := (@snapshot_expected_ok_iff P content _ (some (.int es.length))
    (optText (terminalHash none es))).mpr
      ⟨es, hv, rfl, by simp [IntLike.toInt], hashEquals_optText.mpr (.inr rfl)⟩
  unfold recheckTerminalJournalState
  rw [hsnapshot]
  show (do
    let snapshot ← verifiedJournalSnapshot P content (some (.int es.length))
      (optText (terminalHash none es))
    _) = _
  rw [hexpected.1]
  rfl

/-- What a healthy result says of the rows, whatever the tables hold. -/
theorem rows_of_verified {db : ProjectionDatabase} {content : Content}
    {v : VerifiedProjectionSnapshot}
    (h : verifyProjectionStateOnConnection P R db content = .ok v) :
    ∃ es rows, Verified P content es ∧ RowsOf P 1 es rows ∧
      projectedRows db = rows.map EventRow.stored := by
  obtain ⟨_, -, h⟩ := bind_eq_ok.mp h
  obtain ⟨_, -, h⟩ := bind_eq_ok.mp h
  obtain ⟨_, -, h⟩ := bind_eq_ok.mp h
  obtain ⟨s, hs, h⟩ := bind_eq_ok.mp h
  obtain ⟨_, hok, h⟩ := bind_eq_ok.mp h
  obtain ⟨es, hv, rfl⟩ := snapshot_ok_iff.mp ⟨hs, require_eq_ok.mp hok⟩
  obtain ⟨_, -, h⟩ := bind_eq_ok.mp h
  obtain ⟨_, -, h⟩ := bind_eq_ok.mp h
  obtain ⟨_, -, h⟩ := bind_eq_ok.mp h
  obtain ⟨_, -, h⟩ := bind_eq_ok.mp h
  obtain ⟨_, -, h⟩ := bind_eq_ok.mp h
  obtain ⟨_, -, h⟩ := bind_eq_ok.mp h
  obtain ⟨_, -, h⟩ := bind_eq_ok.mp h
  obtain ⟨_, -, h⟩ := bind_eq_ok.mp h
  split at h
  · obtain ⟨isPrefix, -, h⟩ := bind_eq_ok.mp h
    split at h <;> cases h
  obtain ⟨_, -, h⟩ := bind_eq_ok.mp h
  obtain ⟨_, -, h⟩ := bind_eq_ok.mp h
  obtain ⟨_, -, h⟩ := bind_eq_ok.mp h
  obtain ⟨_, -, h⟩ := bind_eq_ok.mp h
  obtain ⟨_, hrows, -⟩ := bind_eq_ok.mp h
  obtain ⟨rows, hrowsOf, heq⟩ := (verifyProjectedRowValues_eq_ok (Nat.le_refl _)).mp hrows
  rw [List.take_length] at hrowsOf
  exact ⟨es, rows, hv, hrowsOf, heq⟩

/-- A rebuilt projection is healthy against its own journal, stale against every journal that
properly extends it, and a mismatch against every other. A healthy database holds exactly the rows
of the journal's records. -/
theorem projection_binding (hinj : Function.Injective P.sha256Hex) (R : PathResolver) :
    (∀ (db db' : ProjectionDatabase) (path : Str) (content : Content) (s : VerifiedJournalSnapshot),
      verifiedJournalSnapshot P content none .null = .ok s → s.ok = true →
      rebuildProjectionInto P R db path content = .ok db' →
      (∃ v, verifyProjectionState P R (some db') content = .ok v) ∧
      ∀ (content' : Content) (s' : VerifiedJournalSnapshot),
        verifiedJournalSnapshot P content' none .null = .ok s' → s'.ok = true →
        -- the one record count with more digits than every sequence it counts
        s'.events.length ≠ 10 ^ maxIntDigits →
        (s.events <+: s'.events → s.events ≠ s'.events →
          ∃ message, verifyProjectionState P R (some db') content'
            = .error (.projectionStateError .projectionStale message)) ∧
        (¬ s.events <+: s'.events →
          ∃ message, verifyProjectionState P R (some db') content'
            = .error (.projectionStateError .projectionMismatch message))) ∧
    ∀ (db : ProjectionDatabase) (content : Content) (v : VerifiedProjectionSnapshot),
      verifyProjectionState P R (some db) content = .ok v →
      ∃ s rows, verifiedJournalSnapshot P content none .null = .ok s ∧ s.ok = true ∧
        List.Forall₂ (fun p r => eventProjectionValues P p.1 p.2 = .ok r) (s.events.zipIdx 1) rows ∧
        db.events.Perm (rows.map EventRow.stored) ∧
        projectedRows db = rows.map EventRow.stored := by
  constructor
  · intro db db' path content s hs hok hrebuild
    obtain ⟨es, source, identity, hv, hrebuilt⟩ := rebuilt_of_rebuildProjectionInto hrebuild
    obtain rfl := Except.ok.inj (hs.symm.trans (snapshot_of_verified hv))
    constructor
    · obtain ⟨v, hverify, hsnapshot⟩ := hrebuilt.verify_self hv
      refine ⟨v, ?_⟩
      unfold verifyProjectionState
      simp only [hverify, Except.mapError, bind, Except.bind, recheck_ok hv hsnapshot]
    · intro content' s' hs' hok' hcount
      obtain ⟨es', hv', rfl⟩ := snapshot_ok_iff.mp ⟨hs', hok'⟩
      have hlt : es'.length < 10 ^ maxIntDigits := lt_of_le_of_ne hv'.length_le hcount
      obtain ⟨expected, hexpected⟩ := (journalSourceIdentity_isOk_iff hv').mpr hlt
      have hother : es ≠ es' → source ≠ expected := by
        rintro hne rfl
        exact hne (journalSourceIdentity_injective hinj hv hv' hrebuilt.sourceOf hexpected)
      constructor
      · intro hstarts hne
        refine ⟨"projection matches a verified prefix of the source journal; rebuild required", ?_⟩
        have hmatches := @Rebuilt.matches_of_prefix P R db' content content' es es' source identity
          hrebuilt hstarts
        unfold verifyProjectionState
        simp only [hrebuilt.verify_other hv hv' hexpected (hother hne), hmatches, bind, Except.bind,
          if_true, Except.mapError, projectionStateFailure]
      · intro hstarts
        refine ⟨"projection source journal identity does not match the verified journal", ?_⟩
        have hne : es ≠ es' := by
          rintro rfl
          exact hstarts List.prefix_rfl
        have hmatches := @Rebuilt.matches_of_not_prefix P db' content content' es es' hinj hv hv'
          hstarts
        unfold verifyProjectionState
        simp only [hrebuilt.verify_other hv hv' hexpected (hother hne), hmatches, bind, Except.bind,
          Except.mapError, projectionStateFailure]
        rfl
  · intro db content v h
    obtain ⟨verification, hverify, -⟩ := bind_eq_ok.mp h
    obtain ⟨es, rows, hv, hrows, heq⟩ := rows_of_verified (mapError_eq_ok.mp hverify)
    refine ⟨_, rows, snapshot_of_verified hv, rfl, hrows, ?_, heq⟩
    rw [← heq]
    exact (List.perm_insertionSort _ db.events).symm

/-- Absolute paths without links. -/
def plainPaths : PathResolver where
  resolve p := if p = [] then .ok (lit "/") else .ok p
  resolve_resolved p q h := by
    split_ifs at h with hp
    · obtain rfl := Except.ok.inj h
      exact ⟨by decide, rfl⟩
    · obtain rfl := Except.ok.inj h
      exact ⟨hp, if_neg hp⟩

theorem projection_binding_sample :
    ∃ content s db', verifiedJournalSnapshot .plain content none .null = .ok s ∧
      s.events.length = 1 ∧
      rebuildProjectionInto .plain plainPaths .empty (lit "/journal") content = .ok db' ∧
      (∃ v, verifyProjectionState .plain plainPaths (some db') content = .ok v) ∧
      ∃ message, verifyProjectionState .plain plainPaths (some db') none
        = .error (.projectionStateError .projectionMismatch message) := by
  obtain ⟨content, r, hv⟩ := exists_verified_of_append (P := .plain) (e := firstEvent)
    (by decide +kernel)
  have hs := snapshot_of_verified hv
  have hnil : Verified .plain none [] := verified_nil rfl
  have hempty := snapshot_of_verified hnil
  obtain ⟨db', hrebuild⟩ := exists_rebuild (R := plainPaths) hv (by simp)
    (Nat.one_lt_pow (by decide) (by decide))
    (show ProjectionDatabase.empty.userVersion ≤ PROJECTION_SCHEMA_VERSION by decide)
    (show plainPaths.resolve (lit "/journal") = .ok (lit "/journal") from rfl)
    (surrogateFree_of_all (by decide +kernel))
  obtain ⟨hhealthy, hjournals⟩ := (projection_binding Platform.plain_injective plainPaths).1
    .empty db' (lit "/journal") content _ hs rfl hrebuild
  have hlength : ([] : List EventEnvelope).length ≠ 10 ^ maxIntDigits :=
    (Nat.pow_pos (by decide)).ne
  exact ⟨content, _, db', hs, rfl, hrebuild, hhealthy,
    (hjournals none _ hempty rfl hlength).2 (by simp [verifiedSnapshot])⟩

end ActionLineage
