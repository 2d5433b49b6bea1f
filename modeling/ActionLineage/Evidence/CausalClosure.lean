import ActionLineage.Evidence.AtomicImport

/-!
# Imported lineages are closed

The normalizer links an event to the last one it produced, whether or not that one was appended. It
is in step with the journal as long as both were (`InStep`); once it has produced an event that was
dropped, its sequence is ahead of the journal for good and the import appends nothing more. So every
event an import appends is a root, or hangs under an event and a root of the same import
(`causal_closure`). Redaction changes an id in the same way wherever it stands.
-/

namespace ActionLineage

open Py

variable {P : Platform} {policy : RedactionPolicy}

/-! ## Closed lineages -/

/-- The event has no parent and is its own root. -/
def EventEnvelope.IsRoot (e : EventEnvelope) : Prop :=
  e.causality.parentEventId = none ∧ e.causality.rootEventId = e.eventId

/-- The event names one of the earlier events as its parent and a root among them as its root. -/
def HangsUnder (earlier : List EventEnvelope) (e : EventEnvelope) : Prop :=
  (∃ parent ∈ earlier, e.causality.parentEventId = some parent.eventId) ∧
    ∃ root ∈ earlier, root.IsRoot ∧ e.causality.rootEventId = root.eventId

def CausallyClosed (events : List EventEnvelope) : Prop :=
  ∀ before e after, events = before ++ e :: after → e.IsRoot ∨ HangsUnder before e

theorem causallyClosed_nil : CausallyClosed [] := by
  intro before e after h
  simp at h

theorem CausallyClosed.concat {events : List EventEnvelope} (h : CausallyClosed events)
    {e : EventEnvelope} (he : e.IsRoot ∨ HangsUnder events e) : CausallyClosed (events ++ [e]) := by
  intro before x after hsplit
  rcases List.eq_nil_or_concat' after with rfl | ⟨after', last, rfl⟩
  · obtain ⟨rfl, hx⟩ := List.append_inj' hsplit rfl
    obtain rfl : e = x := by simpa using hx
    exact he
  · rw [← List.cons_append, ← List.append_assoc] at hsplit
    obtain ⟨hinit, -⟩ := List.append_inj' hsplit rfl
    exact h before x after' hinit

/-! ## Ids of a prepared event -/

/-- Every id of the appended event is the redaction of the id it was produced with. -/
theorem redactedIds_of_prepared {e r : EventEnvelope} {prev : Option Text} {line : Bytes}
    (h : prepareEventForAppend P policy e prev = .ok (r, line)) :
    redactText policy e.eventId.val = .ok r.eventId.val ∧
      redactText policy e.causality.rootEventId.val = .ok r.causality.rootEventId.val ∧
      RedactsText policy e.causality.parentEventId r.causality.parentEventId := by
  obtain ⟨redacted, hash, hfrom, -, -, -, rfl, -⟩ := prepared_cases h
  exact ⟨hfrom.eventId, hfrom.rootEventId, hfrom.parentEventId⟩

theorem text_eq_of_redactText {s : Str} {t t' : Text} (h : redactText policy s = .ok t.val)
    (h' : redactText policy s = .ok t'.val) : t = t' :=
  Subtype.ext (Except.ok.inj (h.symm.trans h'))

/-- An event linked to an id is appended as a child of the event that id was appended with. -/
theorem parentEventId_of_prepared {e r parent : EventEnvelope} {id : Text} {prev : Option Text}
    {line : Bytes} (h : prepareEventForAppend P policy e prev = .ok (r, line))
    (hid : e.causality.parentEventId.map Subtype.val = some id.val)
    (hparent : redactText policy id.val = .ok parent.eventId.val) :
    r.causality.parentEventId = some parent.eventId := by
  obtain ⟨-, -, hredacts⟩ := redactedIds_of_prepared h
  obtain ⟨linked, hlinked, hval⟩ := Option.map_eq_some_iff.mp hid
  rw [hlinked] at hredacts
  cases hr : r.causality.parentEventId with
  | none =>
    rw [hr] at hredacts
    exact hredacts.elim
  | some t =>
    rw [hr] at hredacts
    have ht : redactText policy linked.val = .ok t.val := hredacts
    rw [hval] at ht
    exact congrArg some (text_eq_of_redactText ht hparent)

/-! ## The normalizer and the journal -/

/-- The normalizer has produced nothing, or its root and last event are events of the import. -/
def InStep (policy : RedactionPolicy) (n : EvidenceNormalizer) (events : List EventEnvelope) :
    Prop :=
  n.rootEventId = none ∨
    ∃ root last : Text, n.rootEventId = some root ∧ n.lastEventId = some last ∧
      (∃ e ∈ events, e.IsRoot ∧ redactText policy root.val = .ok e.eventId.val) ∧
      ∃ e ∈ events, redactText policy last.val = .ok e.eventId.val

/-- What an event produced in step becomes. -/
theorem InStep.appended {n : EvidenceNormalizer} {events : List EventEnvelope}
    (h : InStep policy n events) {record : EvidenceRecord} {recordFingerprint : Str}
    {event r : EventEnvelope} (hproduced : Produced n record recordFingerprint event)
    {prev : Option Text} {line : Bytes}
    (hprep : prepareEventForAppend P policy event prev = .ok (r, line))
    (clock : Supply Timestamp) (idGenerator : Supply Str) :
    (r.IsRoot ∨ HangsUnder events r) ∧
      InStep policy ({ n with clock, idGenerator }.emitted event) (events ++ [r]) := by
  obtain ⟨hid, hroot, hparent⟩ := redactedIds_of_prepared hprep
  have hresolvedRoot := hproduced.root
  have hresolvedParent := hproduced.parent
  rcases h with hnone | ⟨root, last, hrootId, hlastId, ⟨e, he, heRoot, heId⟩, p, hp, hpId⟩
  · -- the first event of the normalizer
    simp only [EvidenceNormalizer.isRoot, hnone, EvidenceNormalizer.resolveRootEventId,
      EvidenceNormalizer.resolveParentEventId, Option.isNone_none, Bool.and_self, if_true,
      Except.ok.injEq] at hresolvedRoot hresolvedParent
    have hparentNone : event.causality.parentEventId = none :=
      Option.map_eq_none_iff.mp hresolvedParent
    rw [← hresolvedRoot] at hroot
    have hrIsRoot : r.IsRoot := by
      refine ⟨?_, text_eq_of_redactText hroot hid⟩
      rw [hparentNone] at hparent
      cases hr : r.causality.parentEventId with
      | none => rfl
      | some t =>
        rw [hr] at hparent
        exact hparent.elim
    refine ⟨.inl hrIsRoot, .inr ⟨_, _, rfl, rfl, ⟨r, by simp, hrIsRoot, ?_⟩, r, by simp, hid⟩⟩
    rw [← hresolvedRoot]
    exact hid
  · simp only [EvidenceNormalizer.isRoot, hrootId, hlastId, EvidenceNormalizer.resolveRootEventId,
      EvidenceNormalizer.resolveParentEventId, Option.isNone_some, Bool.false_and,
      Bool.false_eq_true, if_false, Except.ok.injEq, Option.map_some] at hresolvedRoot hresolvedParent
    rw [← hresolvedRoot] at hroot
    have hrRoot : r.causality.rootEventId = e.eventId := text_eq_of_redactText hroot heId
    have hrParent : r.causality.parentEventId = some p.eventId :=
      parentEventId_of_prepared hprep hresolvedParent hpId
    refine ⟨.inr ⟨⟨p, hp, hrParent⟩, e, he, heRoot, hrRoot⟩,
      .inr ⟨_, _, rfl, rfl, ⟨e, by simp [he], heRoot, ?_⟩, r, by simp, hid⟩⟩
    rw [← hresolvedRoot]
    exact heId

/-- Either the normalizer has run ahead of the journal, or it is in step with it. -/
theorem Reached.closed {seenEntries : IdempotencyEntries} {start s : ImportState}
    {done : List EvidenceRecord} {new : List (EvidenceRecord × EventEnvelope)}
    (h : Reached P policy seenEntries start done s new)
    (hsequence : start.normalizer.sequence = start.nextSequence)
    (hroot : start.normalizer.rootEventId = none) :
    CausallyClosed (new.map Prod.snd) ∧
      (s.nextSequence < s.normalizer.sequence ∨
        s.normalizer.sequence = s.nextSequence ∧ InStep policy s.normalizer (new.map Prod.snd)) := by
  induction h with
  | start => exact ⟨causallyClosed_nil, .inr ⟨hsequence, .inl hroot⟩⟩
  | matched _ _ _ ih => exact ih
  | imported _ _ _ himport ih =>
    obtain ⟨hclosed, hposition⟩ := ih
    obtain ⟨event, line, hproduced, ⟨clock, idGenerator, rfl⟩, hseq, hprep, rfl⟩ :=
      importEvent_eq_ok himport
    have hproducedSeq := hproduced.sequence
    rcases hposition with hahead | ⟨heq, hstep⟩
    · omega
    · obtain ⟨happended, hstep'⟩ := hstep.appended hproduced hprep clock idGenerator
      rw [List.map_append, List.map_singleton]
      refine ⟨hclosed.concat happended, .inr ⟨?_, hstep'⟩⟩
      simp only [ImportState.commit, EvidenceNormalizer.emitted, heq]
  | failed _ _ _ himport _ _ ih =>
    obtain ⟨hclosed, hposition⟩ := ih
    refine ⟨hclosed, ?_⟩
    obtain ⟨clock, idGenerator, rfl | ⟨event, rfl⟩⟩ := importEvent_eq_error himport
    · exact hposition
    · left
      simp only [ImportState.report, EvidenceNormalizer.emitted]
      rcases hposition with hahead | ⟨heq, -⟩ <;> omega

/-! ## Runs of imports -/

/-- One import: the normalizer and redaction policy it is called with, and the batch. -/
structure ImportCall where
  policy : RedactionPolicy
  normalizer : EvidenceNormalizer
  records : List EvidenceRecord

/-- Imports in the order the exclusive lock lets them in: what each returned or raised, and the
content they leave. -/
def runImports (P : Platform) :
    Content → List ImportCall → List (Except PyError (List IngestOutcome)) × Content
  | content, [] => ([], content)
  | content, call :: calls =>
    let step := importEvidenceBatchAtomically P call.policy call.normalizer content call.records
    let rest := runImports P step.2 calls
    (step.1 :: rest.1, rest.2)

theorem rebaseInitialSequence_eq_ok {n rebased : EvidenceNormalizer} {k : Nat}
    (h : n.rebaseInitialSequence k = .ok rebased) :
    rebased.sequence = k ∧ rebased.rootEventId = none := by
  unfold EvidenceNormalizer.rebaseInitialSequence at h
  split at h
  · cases h
  · rename_i hfresh
    obtain rfl := Except.ok.inj h
    exact ⟨rfl, not_not.mp (not_or.mp hfresh).2⟩

/-- The loop leaves the content of the last state it reached, however it ends. -/
theorem Ends.content {seenEntries : IdempotencyEntries} {s : ImportState} {record : EvidenceRecord}
    {step : ImportStep} (h : Ends P policy seenEntries s record step) :
    step.result.2 = s.content := by
  cases h with
  | unwritable => rfl
  | broken => rfl
  | refused => rfl
  | escaped => rfl

/-- An import leaves the journal alone, or leaves what a reached state of its loop holds. -/
theorem import_content (content : Content) (normalizer : EvidenceNormalizer)
    (records : List EvidenceRecord) :
    (importEvidenceBatchAtomically P policy normalizer content records).2 = content ∨
      ∃ es rebased done s new, Verified P content es ∧
        normalizer.rebaseInitialSequence es.length = .ok rebased ∧
        Reached P policy (existingIdempotencyEntries es) (importStart rebased content es) done s new ∧
        (importEvidenceBatchAtomically P policy normalizer content records).2 = s.content := by
  by_cases hverified : ∃ es, Verified P content es
  · obtain ⟨es, hv⟩ := hverified
    rw [import_of_verified hv]
    cases hrebase : normalizer.rebaseInitialSequence es.length with
    | error exc => exact .inl rfl
    | ok rebased =>
      right
      rcases importRecords_reached P policy (existingIdempotencyEntries es)
        (importStart rebased content es) (orderedRecords records) with
        ⟨s, new, hrun, hs⟩ | ⟨before, record, after, s, new, -, hs, hends⟩
      · refine ⟨es, rebased, _, s, new, hv, hrebase, hs, ?_⟩
        show (importRecords _ _ _ _ _).result.2 = s.content
        rw [hrun]
        rfl
      · exact ⟨es, rebased, _, s, new, hv, hrebase, hs, hends.content⟩
  · left
    unfold importEvidenceBatchAtomically
    cases hs : verifiedJournalSnapshot P content none .null with
    | error exc => rfl
    | ok s =>
      cases hok : s.ok with
      | false =>
        simp only [bind, Except.bind, hok, require]
        rfl
      | true =>
        obtain ⟨es, hv, -⟩ := snapshot_ok_iff.mp ⟨hs, hok⟩
        exact absurd ⟨es, hv⟩ hverified

/-- What the loop appends are lines of canonical events. -/
theorem Reached.written {seenEntries : IdempotencyEntries} {start s : ImportState}
    {done : List EvidenceRecord} {new : List (EvidenceRecord × EventEnvelope)}
    (h : Reached P policy seenEntries start done s new) {es : List EventEnvelope}
    (hes : Written P start.content es) : Written P s.content (es ++ new.map Prod.snd) := by
  obtain ⟨old, hold, hcanonical⟩ := hes
  obtain ⟨bodies, hbodies, hbytes, -⟩ := h.content_eq
  refine ⟨old ++ bodies, by rw [hbytes, hold, joinLines_append], List.rel_append hcanonical ?_⟩
  refine List.forall₂_map_left_iff.mpr ((List.forall₂_and_left _ _).mpr ⟨fun p hp => ?_, hbodies⟩)
  obtain ⟨n, fingerprint, event, prev, line, -, -, -, hprep⟩ := h.importedFrom p hp
  obtain ⟨redacted, hash, hfrom, -, -, -, hpersisted, -⟩ := prepared_cases hprep
  rw [hpersisted]
  exact hfrom.canonical.withIntegrity _ _

/-- An import adds a closed lineage to what can be read from the journal. -/
theorem import_closed {content : Content} {es : List EventEnvelope}
    (hread : iterEvents P content = .ok es) (normalizer : EvidenceNormalizer)
    (records : List EvidenceRecord) :
    ∃ new, iterEvents P (importEvidenceBatchAtomically P policy normalizer content records).2
        = .ok (es ++ new) ∧ CausallyClosed new := by
  rcases @import_content P policy content normalizer records with
    hsame | ⟨es', rebased, done, s, new, hv, hrebase, hreached, hcontent⟩
  · exact ⟨[], by rw [hsame, hread, List.append_nil], causallyClosed_nil⟩
  · obtain rfl : es' = es := Except.ok.inj (hv.written.iterEvents.symm.trans hread)
    obtain ⟨hsequence, hroot⟩ := rebaseInitialSequence_eq_ok hrebase
    refine ⟨new.map Prod.snd, ?_, (hreached.closed hsequence hroot).1⟩
    rw [hcontent]
    exact (hreached.written hv.written).iterEvents

theorem causal_closure {content : Content} {es : List EventEnvelope}
    (hread : iterEvents P content = .ok es) (calls : List ImportCall) :
    ∃ imports : List (List EventEnvelope), imports.length = calls.length ∧
      (∀ k, iterEvents P (runImports P content (calls.take k)).2
        = .ok (es ++ (imports.take k).flatten)) ∧
      ∀ events ∈ imports, CausallyClosed events := by
  induction calls generalizing content es with
  | nil => exact ⟨[], rfl, fun k => by simpa [runImports] using hread, by simp⟩
  | cons call calls ih =>
    obtain ⟨new, hnew, hclosed⟩ := @import_closed P call.policy content es hread
      call.normalizer call.records
    obtain ⟨imports, hlength, hruns, hall⟩ := ih hnew
    refine ⟨new :: imports, by simp [hlength], ?_, ?_⟩
    · intro k
      cases k with
      | zero => simpa [runImports] using hread
      | succ k =>
        have hrest := hruns k
        simpa [runImports] using hrest
    · intro events hevents
      rcases List.mem_cons.mp hevents with rfl | hevents
      · exact hclosed
      · exact hall events hevents

theorem causal_closure_sample :
    let P := Platform.checksummed
    let calls := [⟨.default P, sampleNormalizer ["a", "b"],
      [sampleRecord (sampleText "k1") emptyPayload, sampleRecord (sampleText "k2") emptyPayload]⟩]
    ∃ imports : List (List EventEnvelope), imports.length = calls.length ∧
      (∀ k, iterEvents P (runImports P none (calls.take k)).2 = .ok (imports.take k).flatten) ∧
      ∀ events ∈ imports, CausallyClosed events := by
  intro P calls
  have hv : Verified P none [] := verified_nil rfl
  exact causal_closure hv.written.iterEvents calls

end ActionLineage
