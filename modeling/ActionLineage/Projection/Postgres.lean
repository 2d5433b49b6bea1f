import ActionLineage.Projection.Projectable

/-!
# The PostgreSQL projection

`eventProjectionParameters` is what one record contributes to the PostgreSQL table: the columns of
the SQLite row and a digest of the stored document. Two of its column sources differ from SQLite's.
The status falls back from the evidence link to the payload, and an empty text is a value.

The two agree on every shared column exactly when the payload is one for which neither difference
shows (`projections_agree_iff`).
-/

namespace ActionLineage

open Py

/-- The parameters of one `INSERT`. -/
structure PostgresParameters extends EventRow where
  eventJsonSha256 : Str

/-- PostgreSQL's `_string_or_none`: an empty text is kept. -/
def anyStringOrNone (v : Option Value) : Option Str :=
  match v with
  | some (.str s) => some s
  | _ => none

/-- `a or b` on optional texts. -/
def stringOr (a b : Option Str) : Option Str :=
  match a with
  | some (c :: s) => some (c :: s)
  | _ => b

section Parameters

variable (P : Platform)

def sha256Text (s : Str) : Except PyError Str :=
  (utf8Encode s).elim (.error .unicodeEncodeError) fun b => .ok (P.sha256Digest b)

def eventProjectionParameters (e : EventEnvelope) (journalRecordNumber : Nat) :
    Except PyError PostgresParameters := do
  require e.integrity.eventHash.isSome
    (.projectionError "cannot project event without integrity.event_hash")
  let eventObject ← eventToDict P e
  let eventJson ← decodeUtf8 (← serializeEvent P e)
  let payload := e.payload.items
  let evidence : Obj :=
    match payload.get? (lit "evidence_link") with
    | some (.dict link) => link
    | _ => []
  .ok
    { eventId := e.eventId.val
      specVersion := SPEC_VERSION
      eventType := e.eventType.val
      occurredAt := castStr eventObject (lit "occurred_at")
      observedAt := castStr eventObject (lit "observed_at")
      traceId := e.correlation.traceId.val
      runId := e.correlation.runId.val
      spanId := e.correlation.spanId
      sessionId := e.correlation.sessionId
      rootEventId := e.causality.rootEventId.val
      parentEventId := e.causality.parentEventId
      sequence := e.causality.sequence
      eventHash := e.integrity.eventHash
      previousEventHash := e.integrity.previousEventHash
      verificationStatus := stringOr
        (anyStringOrNone (evidence.get? (lit "verification_status")))
        (anyStringOrNone (payload.get? (lit "verification_status")))
      evidenceSubjectEventId := anyStringOrNone (evidence.get? (lit "subject_event_id"))
      evidenceEventId := anyStringOrNone (evidence.get? (lit "evidence_event_id"))
      journalRecordNumber
      eventJson
      eventJsonSha256 := ← sha256Text P eventJson }

end Parameters

variable {P : Platform}

/-! ## One column -/

/-- The value is a text other than the empty one. -/
def NonemptyText (v : Option Value) : Prop := ∃ s : Str, s ≠ [] ∧ v = some (.str s)

theorem anyStringOrNone_eq_iff {v : Option Value} :
    anyStringOrNone v = stringOrNone v ↔ v ≠ some (.str []) := by
  unfold anyStringOrNone stringOrNone
  split
  · rename_i s
    cases s <;> simp
  · rename_i hno
    -- neither reads anything but a text
    have hnone : v ≠ some (.str []) := fun h => hno [] h
    simp only [hnone, ne_eq, not_false_eq_true, iff_true]
    split
    · rename_i c s
      exact absurd rfl (hno (c :: s))
    · rfl

theorem stringOrNone_eq_none {v : Option Value} : stringOrNone v = none ↔ ¬ NonemptyText v := by
  unfold stringOrNone NonemptyText
  split
  · simp
  · rename_i hno
    simp only [true_iff]
    rintro ⟨s, hs, rfl⟩
    obtain ⟨c, t, rfl⟩ := List.exists_cons_of_ne_nil hs
    exact hno c t rfl

/-- A status with a fallback agrees with the status alone when there is one, or no fallback. -/
theorem stringOr_eq_iff {v w : Option Value} :
    stringOr (anyStringOrNone v) (anyStringOrNone w) = stringOrNone v ↔
      NonemptyText v ∨ anyStringOrNone w = none := by
  by_cases hv : NonemptyText v
  · obtain ⟨s, hs, rfl⟩ := hv
    obtain ⟨c, t, rfl⟩ := List.exists_cons_of_ne_nil hs
    simp [stringOr, anyStringOrNone, stringOrNone, NonemptyText]
  · have hfallback : stringOr (anyStringOrNone v) (anyStringOrNone w) = anyStringOrNone w := by
      unfold stringOr
      split
      · rename_i c s hc
        refine absurd ⟨c :: s, List.cons_ne_nil _ _, ?_⟩ hv
        unfold anyStringOrNone at hc
        split at hc
        · rw [Option.some.inj hc]
        · cases hc
      · rfl
    rw [hfallback, stringOrNone_eq_none.mpr hv]
    simp [hv]

theorem anyStringOrNone_eq_none {v : Option Value} :
    anyStringOrNone v = none ↔ ∀ s : Str, v ≠ some (.str s) := by
  unfold anyStringOrNone
  split
  · simp
  · rename_i hno
    simpa using fun s => hno s

/-! ## The row -/

/-- The evidence columns of the two projections agree on this payload. -/
def EvidenceColumnsAgree (payload : Obj) : Prop :=
  match payload.get? (lit "evidence_link") with
  | some (.dict link) =>
    (NonemptyText (Obj.get? link (lit "verification_status")) ∨
      ∀ s : Str, payload.get? (lit "verification_status") ≠ some (.str s)) ∧
    Obj.get? link (lit "subject_event_id") ≠ some (.str []) ∧
    Obj.get? link (lit "evidence_event_id") ≠ some (.str [])
  | _ =>
    payload.get? (lit "verification_status") ≠ some (.str []) ∧
    ¬ NonemptyText (payload.get? (lit "subject_event_id")) ∧
    ¬ NonemptyText (payload.get? (lit "evidence_event_id"))

/-- The evidence columns as PostgreSQL reads them. -/
theorem evidenceColumnsAgree_iff {e : EventEnvelope} {payload link : Obj}
    (hlink : link = match payload.get? (lit "evidence_link") with
      | some (.dict link) => link
      | _ => []) :
    (stringOr (anyStringOrNone (link.get? (lit "verification_status")))
        (anyStringOrNone (payload.get? (lit "verification_status"))) =
          (evidenceProjectionValues (e.items payload)).1 ∧
      anyStringOrNone (link.get? (lit "subject_event_id")) =
          (evidenceProjectionValues (e.items payload)).2.1 ∧
      anyStringOrNone (link.get? (lit "evidence_event_id")) =
          (evidenceProjectionValues (e.items payload)).2.2) ↔
    EvidenceColumnsAgree payload := by
  have hpayload : (e.items payload).get? (lit "payload") = some (.dict payload) := rfl
  unfold EvidenceColumnsAgree evidenceProjectionValues
  rw [hlink, hpayload]
  dsimp only
  split
  · rename_i link hget
    simp only [hget, stringOr_eq_iff, anyStringOrNone_eq_iff, anyStringOrNone_eq_none]
  · rename_i hno
    -- without a link PostgreSQL has no subject and no evidence id
    have hnone (k : Str) : anyStringOrNone (Obj.get? [] k) = none := rfl
    have hsymm (v : Option Value) : none = stringOrNone v ↔ ¬ NonemptyText v := by
      rw [eq_comm, stringOrNone_eq_none]
    simp only [hnone, stringOr, anyStringOrNone_eq_iff, hsymm]

/-- A record of a journal: an event with its hash, and the line it was written as. -/
structure Persisted (P : Platform) (e : EventEnvelope) : Prop where
  eventHash : e.integrity.eventHash.isSome = true
  canonical : e.Canonical
  serializes : ∃ b, serializeEvent P e = .ok b

/-- What an append returned is persisted, whatever the policy. -/
theorem persisted_of_appendEvent {policy : RedactionPolicy} {content after : Content}
    {e r : EventEnvelope} (h : appendEvent P policy content e = (.ok r, after)) : Persisted P r := by
  obtain ⟨es, hv⟩ := verified_of_appendEvent h
  obtain ⟨-, line, hprep, -⟩ := (appendEvent_eq_ok hv).mp h
  obtain ⟨redacted, hash, hfrom, -, -, -, rfl, hline⟩ := prepared_cases hprep
  exact ⟨rfl, hfrom.canonical.withIntegrity _ _, line, hline⟩

theorem Verified.persisted {content : Content} {es : List EventEnvelope}
    (hv : Verified P content es) {e : EventEnvelope} (he : e ∈ es) : Persisted P e := by
  obtain ⟨hcanonical, h, hself, -⟩ := hv.forall_event e he
  exact ⟨by rw [hself]; rfl, hcanonical, hv.serializes e he⟩

/-- Both projections of a persisted event exist; they hold the same value in every shared column
exactly when the evidence columns agree on its payload. -/
theorem projections_agree_iff {e : EventEnvelope} (h : Persisted P e) (n : ℕ) :
    ∃ row params, eventProjectionValues P e n = .ok row ∧
      eventProjectionParameters P e n = .ok params ∧
      (params.toEventRow = row ↔ EvidenceColumnsAgree e.payload.items) := by
  obtain ⟨b, hb⟩ := h.serializes
  obtain ⟨o, hdict, ho, hdump, -⟩ := eventToDict_of_serializes hb
  obtain ⟨text, -, hfree, rfl⟩ := dumpBytes_eq_ok.mp hdump
  have hdecode := decodeUtf8_utf8Bytes hfree
  have hsha : sha256Text P text = .ok (P.sha256Digest (utf8Bytes text)) := by
    rw [sha256Text, utf8Encode_eq_some.mpr ⟨hfree, rfl⟩]
    rfl
  -- a canonical payload is dumped as it is
  obtain rfl : o = e.payload.items := by
    rw [h.canonical.dumpPayload] at ho
    exact (Except.ok.inj ho).symm
  have hrow : eventProjectionValues P e n = .ok _ :=
    bind_eq_ok.mpr ⟨_, hdict, bind_eq_ok.mpr ⟨_, hb, bind_eq_ok.mpr ⟨text, hdecode, rfl⟩⟩⟩
  have hparams : eventProjectionParameters P e n = .ok _ :=
    bind_eq_ok.mpr ⟨(), require_eq_ok.mpr h.eventHash, bind_eq_ok.mpr ⟨_, hdict,
      bind_eq_ok.mpr ⟨_, hb, bind_eq_ok.mpr ⟨text, hdecode, bind_eq_ok.mpr ⟨_, hsha, rfl⟩⟩⟩⟩⟩
  refine ⟨_, _, hrow, hparams, ?_⟩
  simp only [EventRow.mk.injEq, true_and, and_true]
  exact evidenceColumnsAgree_iff rfl

theorem projections_agree_iff_sample :
    ∃ e n row params, Persisted .checksummed e ∧
      eventProjectionValues .checksummed e n = .ok row ∧
      eventProjectionParameters .checksummed e n = .ok params ∧
      (params.toEventRow = row ↔ EvidenceColumnsAgree e.payload.items) := by
  obtain ⟨content, r, hv⟩ := exists_verified_sample
  have hr : Persisted .checksummed r := hv.persisted (List.mem_singleton.mpr rfl)
  obtain ⟨row, params, hrow, hparams, hiff⟩ := projections_agree_iff hr 1
  exact ⟨r, 1, row, params, hr, hrow, hparams, hiff⟩

/-- Evidence named in the payload itself, without a link. -/
def flatEvidenceEvent : EventEnvelope :=
  sampleEvent (sampleText "a") 0
    (samplePayload [(lit "evidence_event_id", .str (lit "evidence-1")),
      (lit "subject_event_id", .str (lit "subject-1"))])

/-- SQLite stores the subject and the evidence id, PostgreSQL stores neither. -/
theorem flat_evidence_differs :
    let P := Platform.checksummed
    let stored : Except PyError (List (Option Str × Option Str)) := do
      let r ← (appendEvent P (.default P) none flatEvidenceEvent).1
      let row ← eventProjectionValues P r 1
      let params ← eventProjectionParameters P r 1
      .ok [(row.evidenceSubjectEventId, row.evidenceEventId),
        (params.evidenceSubjectEventId, params.evidenceEventId)]
    stored = .ok [(some (lit "subject-1"), some (lit "evidence-1")), (none, none)] := by
  decide +kernel

end ActionLineage
