import ActionLineage.Journal.Anchors
import ActionLineage.Projection.State
import ActionLineage.Projection.Projectable

/-!
# The parts of a projection's state

What a rebuild writes is read back: the metadata keys, the decimal record count, the rows. The two
identities are digests of canonical JSON, so without collisions an identity fixes what it was made
of (`journalSourceIdentity_injective`).
-/

namespace ActionLineage

open Py

variable {P : Platform}

/-! ## Metadata -/

section Metadata

variable {metadata : List (SqlValue × SqlValue)} {key : String} {k value : Str}

/-- A lookup after an update of the values alone. -/
theorem metadataGet_map (f : SqlValue × SqlValue → SqlValue × SqlValue) (hf : ∀ p, (f p).1 = p.1) :
    metadataGet (metadata.map f) key
      = (((metadata.reverse.find? fun p => p.1 == .text (lit key)).map f).map Prod.snd).getD
          .null := by
  have hsame : ((fun p : SqlValue × SqlValue => p.1 == .text (lit key)) ∘ f)
      = fun p => p.1 == .text (lit key) := by
    funext p
    show ((f p).1 == .text (lit key)) = (p.1 == .text (lit key))
    rw [hf p]
  unfold metadataGet
  rw [← List.map_reverse, List.find?_map, hsame]

theorem metadataGet_setMetadataKey_self :
    metadataGet (setMetadataKey metadata (lit key) value) key = .text value := by
  unfold setMetadataKey
  split
  · rename_i hany
    rw [metadataGet_map _ fun p => by split <;> rfl]
    obtain ⟨p, hp, hkey⟩ := List.any_eq_true.mp hany
    cases hfind : metadata.reverse.find? fun p => p.1 == .text (lit key) with
    | none => exact absurd hkey (List.find?_eq_none.mp hfind p (List.mem_reverse.mpr hp))
    | some q =>
      have hq : q.1 = .text (lit key) := by simpa using List.find?_some hfind
      simp [hq]
  · simp [metadataGet]

theorem metadataGet_setMetadataKey_of_ne (hne : k ≠ lit key) :
    metadataGet (setMetadataKey metadata k value) key = metadataGet metadata key := by
  unfold setMetadataKey
  split
  · rw [metadataGet_map _ fun p => by split <;> rfl, metadataGet]
    cases hfind : metadata.reverse.find? fun p => p.1 == .text (lit key) with
    | none => rfl
    | some q =>
      have hq : q.1 = .text (lit key) := by simpa using List.find?_some hfind
      have hother : q.1 ≠ .text k := by
        rw [hq]
        exact fun h => hne (SqlValue.text.inj h).symm
      simp [hother]
  · simp [metadataGet, hne]

end Metadata

/-- The decimal text of a number is read as that number. -/
theorem intOfText_natText {isSpace : CodePoint → Bool}
    (hspace : ∀ c, isDigit c = true → isSpace c = false) {n : Nat}
    (hlen : (natText n).length ≤ maxIntDigits) :
    intOfText P isSpace (natText n) = some (n : Int) := by
  have hdigits := natText_digits n
  have hkeep : ∀ s : Str, (∀ c ∈ s, isDigit c = true) → s.dropWhile isSpace = s := by
    intro s hs
    apply List.dropWhile_eq_self_iff.mpr
    intro hpos
    rw [hspace _ (hs _ (List.getElem_mem hpos))]
    simp
  have htrimmed : (((natText n).dropWhile isSpace).reverse.dropWhile isSpace).reverse
      = natText n := by
    rw [hkeep _ hdigits, hkeep _ fun c hc => hdigits c (List.mem_reverse.mp hc),
      List.reverse_reverse]
  have hval : ∀ c ∈ natText n, decimalValue P c = some (digitVal c) := by
    intro c hc
    have hd := hdigits c hc
    have hascii : c.val < 128 := by
      simp only [isDigit, Bool.and_eq_true, decide_eq_true_eq] at hd
      omega
    simp [decimalValue, hascii, hd]
  have hgroups : (natText n).splitOn (cp '_') = [natText n] := by
    apply List.splitOnP_eq_singleton
    intro c hc
    have hne : c ≠ cp '_' := by
      rintro rfl
      exact absurd (hdigits _ hc) (by decide)
    simpa using hne
  have hdecimal : isDecimal P (natText n) = true := by
    simp only [isDecimal, bne_iff_ne, ne_eq, natText_ne_nil, not_false_eq_true,
      Bool.and_eq_true, List.all_eq_true, true_and]
    intro c hc
    rw [hval c hc]
    rfl
  have hread : (natText n).foldl (fun n c => 10 * n + (decimalValue P c).getD 0) 0 = n := by
    have hfold : (natText n).foldl (fun n c => 10 * n + (decimalValue P c).getD 0) 0
        = readNat (natText n) := by
      apply List.foldl_ext
      intro m c hc
      rw [hval c hc]
      rfl
    rw [hfold, readNat_natText]
  obtain ⟨c, s, hcons⟩ := List.exists_cons_of_ne_nil (natText_ne_nil n)
  have hc : isDigit c = true := hdigits c (by rw [hcons]; simp)
  have hminus : c ≠ cp '-' := by
    rintro rfl
    exact absurd hc (by decide)
  have hplus : c ≠ cp '+' := by
    rintro rfl
    exact absurd hc (by decide)
  have hsigned : splitSign (natText n) = (false, natText n) := by
    rw [hcons, splitSign, if_neg hminus, if_neg hplus]
  simp only [intOfText, htrimmed, hsigned, hgroups, List.all_cons, List.all_nil, hdecimal,
    List.flatten_cons, List.flatten_nil, List.append_nil, hlen, hread]
  simp

/-! ## Identities -/

theorem surrogateFree_sha256Digest (b : Bytes) : SurrogateFree (P.sha256Digest b) := by
  have halphabet : SurrogateFree digestAlphabet := surrogateFree_of_all (by decide +kernel)
  intro c hc
  exact halphabet c (mem_digestAlphabet c hc)

theorem dumpable_terminalHash {content : Content} {es : List EventEnvelope}
    (hv : Verified P content es) : Dumpable (optText (terminalHash none es)) := by
  cases hh : terminalHash none es with
  | none => trivial
  | some h =>
    obtain ⟨b, hb⟩ := hv.terminalHash_digest hh
    show SurrogateFree h.val
    rw [hb]
    exact surrogateFree_sha256Digest b

theorem natText_length_le_iff {n k : ℕ} (hk : 0 < k) : (natText n).length ≤ k ↔ n < 10 ^ k := by
  unfold natText
  split
  · rename_i hzero
    subst hzero
    simpa using Nat.one_le_iff_ne_zero.mpr hk.ne'
  · rw [List.length_map, List.length_reverse]
    exact Nat.digits_length_le_iff (by norm_num) n

theorem namespacedDigest_eq_ok {version d : Str} {preimage : Obj} :
    namespacedDigest P version preimage = .ok d ↔
      ∃ doc, dumpBytes (.dict preimage) = .ok doc ∧
        version ++ lit ":sha256:" ++ P.sha256Hex doc = d := by
  simp only [namespacedDigest, bind_eq_ok, deterministicJsonBytes_eq_ok, Except.ok.injEq]

/-- When digests do not collide, documents with one digest agree on every member. -/
theorem member_eq_of_namespacedDigest (hinj : Function.Injective P.sha256Hex) {version d : Str}
    {a b : Obj} (ha : (Value.dict a).WellFormed) (hb : (Value.dict b).WellFormed)
    (h : namespacedDigest P version a = .ok d) (h' : namespacedDigest P version b = .ok d)
    {k : Str} {v w : Value} (hv : a.get? k = some v) (hw : b.get? k = some w) :
    v.sortKeys = w.sortKeys := by
  obtain ⟨doc, hdoc, rfl⟩ := namespacedDigest_eq_ok.mp h
  obtain ⟨doc', hdoc', hsame⟩ := namespacedDigest_eq_ok.mp h'
  obtain rfl : doc' = doc := hinj (List.append_cancel_left hsame)
  exact member_eq_of_dumpBytes ha hb hdoc hdoc' hv hw

/-- The members the source identity of a verified journal digests. -/
def sourcePreimage (P : Platform) (content : Content) (es : List EventEnvelope) : Obj :=
  [(lit "journal_sha256", (content.map P.sha256Digest).elim .null .str),
   (lit "record_count", .int es.length), (lit "terminal_hash", optText (terminalHash none es)),
   (lit "version", .str JOURNAL_SOURCE_IDENTITY_VERSION)]

theorem journalSourceIdentity_verified (content : Content) (es : List EventEnvelope) :
    journalSourceIdentity P (verifiedSnapshot P content es)
      = namespacedDigest P JOURNAL_SOURCE_IDENTITY_VERSION (sourcePreimage P content es) := rfl

theorem sourcePreimage_wellFormed (content : Content) (es : List EventEnvelope) :
    (Value.dict (sourcePreimage P content es)).WellFormed := by
  have hleaf : ∀ o : Option Str, (o.elim .null .str : Value).WellFormed := by
    intro o
    cases o <;> trivial
  have hhash : (optText (terminalHash none es)).WellFormed := by
    cases terminalHash none es <;> trivial
  unfold Value.WellFormed
  rw [Value.all_dict]
  have hkeys : ((sourcePreimage P content es).map Prod.fst).Nodup := by
    show [lit "journal_sha256", lit "record_count", lit "terminal_hash", lit "version"].Nodup
    decide
  refine ⟨hkeys, ?_⟩
  simp only [sourcePreimage, List.forall_mem_cons]
  exact ⟨hleaf _, trivial, hhash, trivial, by simp⟩

/-- Without collisions the source identity fixes the records. -/
theorem journalSourceIdentity_injective (hinj : Function.Injective P.sha256Hex)
    {content content' : Content} {es es' : List EventEnvelope} (hv : Verified P content es)
    (hv' : Verified P content' es') {d : Str}
    (h : journalSourceIdentity P (verifiedSnapshot P content es) = .ok d)
    (h' : journalSourceIdentity P (verifiedSnapshot P content' es') = .ok d) : es = es' := by
  rw [journalSourceIdentity_verified] at h h'
  have hmember := fun k v w => @member_eq_of_namespacedDigest P hinj _ _ _ _
    (sourcePreimage_wellFormed content es) (sourcePreimage_wellFormed content' es') h h' k v w
  have hcount := hmember (lit "record_count") (.int es.length) (.int es'.length) rfl rfl
  have hterm := hmember (lit "terminal_hash") (optText (terminalHash none es))
    (optText (terminalHash none es')) rfl rfl
  have hlen : es.length = es'.length := by
    simpa [Value.sortKeys] using hcount
  have hlast : terminalHash none es = terminalHash none es' := by
    cases hes : terminalHash none es <;> cases hes' : terminalHash none es' <;>
      simp_all [optText, Value.sortKeys, Subtype.ext_iff]
  have hbytes := content_unique hinj hv hv' hlen hlast
  rw [Verified, ← hbytes] at hv'
  exact hv.unique hv'

/-- An identity needs a record count Python can write. -/
theorem journalSourceIdentity_isOk_iff {content : Content} {es : List EventEnvelope}
    (hv : Verified P content es) :
    (∃ d, journalSourceIdentity P (verifiedSnapshot P content es) = .ok d) ↔
      es.length < 10 ^ maxIntDigits := by
  have hdigest : Dumpable ((content.map P.sha256Digest).elim .null .str) := by
    cases content with
    | none => trivial
    | some b => exact surrogateFree_sha256Digest b
  have hversion : SurrogateFree JOURNAL_SOURCE_IDENTITY_VERSION :=
    surrogateFree_of_all (by decide +kernel)
  have hkeys : ∀ k ∈ (sourcePreimage P content es).map Prod.fst, SurrogateFree k := by
    show ∀ k ∈ [lit "journal_sha256", lit "record_count", lit "terminal_hash", lit "version"], _
    simp only [List.forall_mem_cons]
    exact ⟨surrogateFree_of_all (by decide +kernel), surrogateFree_of_all (by decide +kernel),
      surrogateFree_of_all (by decide +kernel), surrogateFree_of_all (by decide +kernel), by simp⟩
  have hdumps : Dumpable (.dict (sourcePreimage P content es)) ↔
      (natText es.length).length ≤ maxIntDigits := by
    rw [Dumpable, Value.all_dict]
    simp only [sourcePreimage, List.forall_mem_cons]
    constructor
    · intro h
      exact h.2.2.1
    · intro h
      exact ⟨hkeys, hdigest, h, dumpable_terminalHash hv, hversion, by simp⟩
  rw [journalSourceIdentity_verified, ← natText_length_le_iff (by decide), ← hdumps,
    ← exists_dumpBytes_iff]
  simp only [namespacedDigest_eq_ok]
  constructor
  · rintro ⟨d, doc, hdoc, -⟩
    exact ⟨doc, hdoc⟩
  · rintro ⟨doc, hdoc⟩
    exact ⟨_, doc, hdoc, rfl⟩

theorem surrogateFree_namespacedDigest {version d : Str} {preimage : Obj}
    (hversion : SurrogateFree version) (h : namespacedDigest P version preimage = .ok d) :
    SurrogateFree d := by
  obtain ⟨doc, -, rfl⟩ := namespacedDigest_eq_ok.mp h
  have hhex : SurrogateFree (P.sha256Hex doc) :=
    (surrogateFree_append_iff.mp (surrogateFree_sha256Digest doc)).2
  exact (hversion.append (surrogateFree_of_all (by decide +kernel))).append hhex

/-- The identity of a projection of a verified journal can be written. -/
theorem exists_projectionIdentity {content : Content} {es : List EventEnvelope}
    (hv : Verified P content es) (hcount : es.length < 10 ^ maxIntDigits) {source : Str}
    (hsource : journalSourceIdentity P (verifiedSnapshot P content es) = .ok source) :
    ∃ d, projectionIdentity P source ((content.map P.sha256Digest).getD []) es.length
      (optText (terminalHash none es)) PROJECTION_SCHEMA_VERSION = .ok d := by
  have hdigest : SurrogateFree ((content.map P.sha256Digest).getD []) := by
    cases content with
    | none => simp [SurrogateFree]
    | some b => exact surrogateFree_sha256Digest b
  have hidentity : SurrogateFree source :=
    surrogateFree_namespacedDigest (surrogateFree_of_all (by decide +kernel)) hsource
  have hrecords : (natText es.length).length ≤ maxIntDigits :=
    (natText_length_le_iff (by decide)).mpr hcount
  have hschema : (natText PROJECTION_SCHEMA_VERSION).length ≤ maxIntDigits :=
    (natText_length_le_iff (by decide)).mpr
      (lt_of_lt_of_le (by decide) (Nat.pow_le_pow_right (by decide) (show 1 ≤ maxIntDigits by decide)))
  have hdump : Dumpable (.dict
      [(lit "version", .str PROJECTION_IDENTITY_VERSION), (lit "engine", .str (lit "sqlite")),
       (lit "schema_version", .int (PROJECTION_SCHEMA_VERSION : Nat)),
       (lit "source_journal_identity_version", .str JOURNAL_SOURCE_IDENTITY_VERSION),
       (lit "source_journal_identity", .str source),
       (lit "source_journal_sha256", .str ((content.map P.sha256Digest).getD [])),
       (lit "records_indexed", .int es.length),
       (lit "last_event_hash", optText (terminalHash none es))]) := by
    rw [Dumpable, Value.all_dict]
    constructor
    · simp only [List.map_cons, List.map_nil, List.forall_mem_cons]
      refine ⟨?_, ?_, ?_, ?_, ?_, ?_, ?_, ?_, by simp⟩ <;>
        exact surrogateFree_of_all (by decide +kernel)
    · simp only [List.forall_mem_cons]
      exact ⟨surrogateFree_of_all (by decide +kernel), surrogateFree_of_all (by decide +kernel),
        hschema, surrogateFree_of_all (by decide +kernel), hidentity, hdigest, hrecords,
        dumpable_terminalHash hv, by simp⟩
  obtain ⟨doc, hdoc⟩ := exists_dumpBytes_iff.mpr hdump
  exact ⟨_, namespacedDigest_eq_ok.mpr ⟨doc, hdoc, rfl⟩⟩

/-- The records of a journal state their own sequence, so a journal has at most one record more
than Python can number. -/
theorem Verified.length_le {content : Content} {es : List EventEnvelope} (hv : Verified P content es) :
    es.length ≤ 10 ^ maxIntDigits := by
  rcases List.eq_nil_or_concat' es with rfl | ⟨front, last, rfl⟩
  · simp
  obtain ⟨o, -, -, hdump⟩ := serializeEvent_isOk_iff.mp (hv.serializes last (by simp))
  have hcausality : Dumpable last.causality.json :=
    ((Value.all_dict _).mp hdump).2 (lit "causality", last.causality.json)
      (by simp [EventEnvelope.items])
  have hsequence : (natText last.causality.sequence).length ≤ maxIntDigits :=
    ((Value.all_dict _).mp hcausality).2 (lit "sequence", .int last.causality.sequence)
      (by simp [Causality.items])
  have hindex := ValidRecords.getElem_sequence hv front.length (by simp)
  simp only [List.get_eq_getElem, List.getElem_concat_length, Nat.zero_add] at hindex
  rw [hindex, natText_length_le_iff (by decide)] at hsequence
  rw [List.length_append, List.length_singleton]
  exact hsequence

/-! ## Rows -/

/-- The rows of the records, one each. -/
def RowsOf (P : Platform) (n : ℕ) (es : List EventEnvelope) (rows : List EventRow) : Prop :=
  List.Forall₂ (fun p r => eventProjectionValues P p.1 p.2 = .ok r) (es.zipIdx n) rows

theorem RowsOf.length_eq {n : ℕ} {es : List EventEnvelope} {rows : List EventRow}
    (h : RowsOf P n es rows) : rows.length = es.length := by
  rw [← List.Forall₂.length_eq h, List.length_zipIdx]

theorem rowsOf_cons {n : ℕ} {e : EventEnvelope} {es : List EventEnvelope} {rows : List EventRow} :
    RowsOf P n (e :: es) rows ↔
      ∃ r more, eventProjectionValues P e n = .ok r ∧ RowsOf P (n + 1) es more ∧
        rows = r :: more := by
  rw [RowsOf, List.zipIdx_cons, List.forall₂_cons_left_iff]
  rfl

/-- What indexing adds are the rows of the events. -/
theorem indexEvents_rowsOf {es : List EventEnvelope} {rows rows' : List EventRow} {n : ℕ}
    (hbelow : ∀ r ∈ rows, r.journalRecordNumber < n) (h : indexEvents P rows n es = .ok rows') :
    ∃ more, rows' = rows ++ more ∧ RowsOf P n es more := by
  induction es generalizing rows n with
  | nil =>
    obtain rfl := Except.ok.inj h
    exact ⟨[], by simp, .nil⟩
  | cons e es ih =>
    obtain ⟨⟨inserted, rows₁⟩, hindex, h⟩ := bind_eq_ok.mp h
    obtain ⟨-, r, rfl, hvalues⟩ := indexEvent_eq_ok hbelow hindex
    have hbelow' : ∀ q ∈ rows ++ [r], q.journalRecordNumber < n + 1 := by
      intro q hq
      rcases List.mem_append.mp hq with hq | hq
      · exact Nat.lt_succ_of_lt (hbelow q hq)
      · rw [List.mem_singleton.mp hq, (eventProjectionValues_key hvalues).2]
        exact Nat.lt_succ_self n
    obtain ⟨more, rfl, hmore⟩ := ih hbelow' h
    exact ⟨r :: more, by simp, rowsOf_cons.mpr ⟨r, more, hvalues, hmore, rfl⟩⟩

/-- Record numbers count up. -/
theorem RowsOf.ordered {n : ℕ} {es : List EventEnvelope} {rows : List EventRow}
    (h : RowsOf P n es rows) :
    (∀ r ∈ rows, n ≤ r.journalRecordNumber) ∧
      rows.Pairwise fun a b => a.journalRecordNumber < b.journalRecordNumber := by
  induction es generalizing n rows with
  | nil =>
    cases h
    simp
  | cons e es ih =>
    obtain ⟨r, more, hvalues, hmore, rfl⟩ := rowsOf_cons.mp h
    obtain ⟨hlow, hordered⟩ := ih hmore
    have hnumber := (eventProjectionValues_key hvalues).2
    constructor
    · intro q hq
      rcases List.mem_cons.mp hq with rfl | hq
      · exact hnumber.ge
      · exact Nat.le_of_succ_le (hlow q hq)
    · rw [List.pairwise_cons, hnumber]
      exact ⟨hlow, hordered⟩

/-- Rows of records are read in the order of the records. -/
theorem RowsOf.projectedRows {n : ℕ} {es : List EventEnvelope} {rows : List EventRow}
    (h : RowsOf P n es rows) {db : ProjectionDatabase} (hdb : db.events = rows.map EventRow.stored) :
    projectedRows db = rows.map EventRow.stored := by
  unfold ActionLineage.projectedRows
  rw [hdb]
  apply List.Pairwise.insertionSort_eq
  rw [List.pairwise_map]
  apply h.ordered.2.imp
  intro a b hlt
  show decide ((a.journalRecordNumber : Int) ≤ b.journalRecordNumber) = true
  exact decide_eq_true (Int.ofNat_le.mpr hlt.le)

theorem numberEq_int {i j : Int} : numberEq (.int i) (.int j) = true ↔ i = j := by
  have hpos : (2 : Int) ^ 1074 ≠ 0 := pow_ne_zero _ (by decide)
  show (i * 2 ^ 1074 == j * 2 ^ 1074) = true ↔ i = j
  rw [beq_iff_eq]
  exact Int.mul_eq_mul_right_iff hpos

/-- Equal values of equal storage class are one cell, floats apart. -/
theorem sameCell_iff {a b : SqlValue} (hb : ∀ x, b ≠ .real x) :
    (pyEq a.toValue b.toValue && a.typeName == b.typeName) = true ↔ a = b := by
  have htypes : [lit "null", lit "integer", lit "real", lit "text", lit "blob"].Nodup := by decide
  simp only [List.nodup_cons, List.mem_cons, not_or] at htypes
  constructor
  · intro h
    obtain ⟨hvalue, htype⟩ := Bool.and_eq_true_iff.mp h
    cases a <;> cases b <;>
      simp_all [SqlValue.typeName, SqlValue.toValue, pyEq, numberEq_int]
  · rintro rfl
    cases a with
    | real x => exact absurd rfl (hb x)
    | _ => simp [SqlValue.toValue, pyEq, numberEq_int]

theorem stored_ne_real (r : EventRow) : ∀ c ∈ r.stored.cells, ∀ x, c ≠ .real x := by
  have hoption : ∀ {α : Type} (cell : α → SqlValue) (o : Option α), (∀ a x, cell a ≠ .real x) →
      ∀ x, SqlValue.ofOption cell o ≠ .real x := by
    intro α cell o hcell x
    cases o with
    | none => simp [SqlValue.ofOption]
    | some a => exact hcell a x
  have htext := fun o => hoption textCell o (by simp [textCell])
  have hplain := fun o => hoption SqlValue.text o (by simp)
  simp [EventRow.stored, htext, hplain]

/-- A row matches exactly when it is the row expected. -/
theorem rowMatches_stored {row : SqlRow} {r : EventRow} :
    rowMatches row r.stored = true ↔ row = r.stored := by
  have hlen : row.cells.length = r.stored.cells.length := by
    rw [row.length_eq, r.stored.length_eq]
  have hcells : row = r.stored ↔ row.cells = r.stored.cells := by
    cases row
    cases hr : r.stored
    simp
  rw [hcells, rowMatches, List.all_eq_true, ← List.forall₂_eq_eq_eq, List.forall₂_iff_zip]
  constructor
  · intro h
    refine ⟨hlen, fun {a b} hab => ?_⟩
    exact (sameCell_iff (stored_ne_real r b (List.of_mem_zip hab).2)).mp (h _ hab)
  · rintro ⟨-, h⟩ ⟨a, b⟩ hab
    exact (sameCell_iff (stored_ne_real r b (List.of_mem_zip hab).2)).mpr (h hab)

/-- The loop accepts exactly the rows of the events. -/
theorem verifyRowContents_eq_ok {es : List EventEnvelope} {rows : List SqlRow} {n : ℕ}
    (hlen : rows.length = es.length) :
    verifyRowContents P n es rows = .ok () ↔
      ∃ values, RowsOf P n es values ∧ rows = values.map EventRow.stored := by
  induction es generalizing n rows with
  | nil =>
    obtain rfl := List.length_eq_zero_iff.mp hlen
    simp only [verifyRowContents, true_iff]
    exact ⟨[], .nil, rfl⟩
  | cons e es ih =>
    obtain ⟨row, rows, rfl⟩ := List.exists_cons_of_length_eq_add_one hlen
    have hlen' : rows.length = es.length := by simpa using hlen
    rw [verifyRowContents]
    simp only [bind_eq_ok]
    constructor
    · rintro ⟨r, hr, _, hmatch, hrest⟩
      obtain rfl := rowMatches_stored.mp (require_eq_ok.mp hmatch)
      obtain ⟨values, hvalues, rfl⟩ := (ih hlen').mp hrest
      exact ⟨r :: values, rowsOf_cons.mpr ⟨r, values, hr, hvalues, rfl⟩, rfl⟩
    · rintro ⟨_, hvalues, hrows⟩
      obtain ⟨r, more, hr, hmore, rfl⟩ := rowsOf_cons.mp hvalues
      obtain ⟨rfl, rfl⟩ := List.cons.inj hrows
      exact ⟨r, hr, (), require_eq_ok.mpr (rowMatches_stored.mpr rfl),
        (ih hlen').mpr ⟨more, hmore, rfl⟩⟩

theorem verifyProjectedRowValues_eq_ok {rows : List SqlRow} {snapshot : VerifiedJournalSnapshot}
    {recordCount : ℕ} (hcount : recordCount ≤ snapshot.events.length) :
    verifyProjectedRowValues P rows snapshot recordCount = .ok () ↔
      ∃ values, RowsOf P 1 (snapshot.events.take recordCount) values ∧
        rows = values.map EventRow.stored := by
  have htake : (snapshot.events.take recordCount).length = recordCount := by simpa using hcount
  unfold verifyProjectedRowValues
  by_cases hlen : rows.length = recordCount
  · rw [if_neg (not_not.mpr hlen)]
    exact verifyRowContents_eq_ok (hlen.trans htake.symm)
  · rw [if_pos hlen]
    constructor
    · intro h
      cases h
    · rintro ⟨values, hvalues, rfl⟩
      apply absurd _ hlen
      rw [List.length_map, hvalues.length_eq, htake]

end ActionLineage
