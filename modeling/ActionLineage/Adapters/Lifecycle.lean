import ActionLineage.Adapters.Frameworks
import ActionLineage.Evidence.BatchImport
import ActionLineage.Py.Reordering

/-!
# The lifecycle of a framework call after import

The sort key of a lifecycle record ends with the name of its state, and of those the later ones come
first in the alphabet. So an import that accepts the records always persists them backwards: the
request stands last, as a descendant of its own dispatch and acknowledgement
(`lifecycle_import_reversed`).
-/

namespace ActionLineage

open Py

variable {P : Platform} {policy : RedactionPolicy}

/-! ## Sort keys -/

/-- The records are sorted before the ones they are listed behind, and share no key with them. -/
def Descending (records : List EvidenceRecord) : Prop :=
  records.Pairwise fun a b => b.orderKey < a.orderKey ∧ b.idempotencyKey ≠ a.idempotencyKey

theorem orderedRecords_eq_reverse {records : List EvidenceRecord} (h : Descending records) :
    orderedRecords records = records.reverse := by
  have : Std.Total fun a b : EvidenceRecord => a.orderKey ≤ b.orderKey :=
    ⟨fun a b => le_total _ _⟩
  have : IsTrans EvidenceRecord fun a b => a.orderKey ≤ b.orderKey := ⟨fun _ _ _ => le_trans⟩
  have hperm : (orderedRecords records).Perm records := List.perm_insertionSort _ records
  refine eq_of_perm_of_sorted (hperm.trans (List.reverse_perm records).symm) ?_
    (List.pairwise_insertionSort _ _) ?_
  · rw [(hperm.map EvidenceRecord.orderKey).nodup_iff, List.Nodup, List.pairwise_map]
    exact h.imp fun hlt => (ne_of_lt hlt.1).symm
  · rw [List.pairwise_reverse]
    exact h.imp fun hlt => le_of_lt hlt.1

theorem lifecycleRecord_eq_ok {i : FrameworkToolInvocation} {eventType lifecycle : Str}
    {payload : JsonObject} {sortKeyPrefix : Str} {record : EvidenceRecord}
    (h : lifecycleRecord P i eventType lifecycle payload sortKeyPrefix = .ok record) :
    record.eventType = eventType ∧
      record.sortKey = (sortKeyPrefix ++ i.invocationId.val ++ lit ":") ++ lifecycle ∧
      record.idempotencyKey.val = (i.idempotencyPrefix ++ lit ":") ++ lifecycle := by
  obtain ⟨⟨⟩, -, h⟩ := bind_eq_ok.mp h
  obtain ⟨key, hkey, h⟩ := Option.bind_eq_some_iff.mp (validated_eq_ok.mp h)
  dsimp only at h
  split at h
  · obtain rfl := Option.some.inj h
    exact ⟨rfl, rfl, readText_str_eq_some hkey⟩
  · cases h

/-- The records of one call are ordered as the names of their states. -/
theorem lifecycleRecord_lt {i : FrameworkToolInvocation} {sortKeyPrefix : Str}
    {eventType lifecycle eventType' lifecycle' : Str} {payload payload' : JsonObject}
    {record record' : EvidenceRecord}
    (h : lifecycleRecord P i eventType lifecycle payload sortKeyPrefix = .ok record)
    (h' : lifecycleRecord P i eventType' lifecycle' payload' sortKeyPrefix = .ok record')
    (hlt : lifecycle < lifecycle') :
    record.orderKey < record'.orderKey ∧ record.idempotencyKey ≠ record'.idempotencyKey := by
  obtain ⟨-, hsort, hkey⟩ := lifecycleRecord_eq_ok h
  obtain ⟨-, hsort', hkey'⟩ := lifecycleRecord_eq_ok h'
  constructor
  · refine Prod.Lex.lt_iff.mpr (.inl ?_)
    show record.sortKey < record'.sortKey
    rw [hsort, hsort']
    exact List.append_left_lt hlt
  · intro heq
    have hval : record.idempotencyKey.val = record'.idempotencyKey.val := congrArg _ heq
    rw [hkey, hkey'] at hval
    exact absurd (List.append_cancel_left hval) (ne_of_lt hlt)

theorem descending_lifecycle {i : FrameworkToolInvocation} {outcome : FrameworkOutcome}
    {sortKeyPrefix : Str} {records : List EvidenceRecord}
    (h : frameworkLifecycleRecords P i outcome sortKeyPrefix = .ok records) :
    Descending records ∧ 2 ≤ records.length := by
  obtain ⟨⟨⟩, -, h⟩ := bind_eq_ok.mp h
  obtain ⟨payload, -, h⟩ := bind_eq_ok.mp h
  obtain ⟨requested, hrequested, h⟩ := bind_eq_ok.mp h
  cases hreason : outcome.notDispatchedReason with
  | some reason =>
    rw [hreason] at h
    obtain ⟨payload', -, h⟩ := bind_eq_ok.mp h
    obtain ⟨notDispatched, hnotDispatched, h⟩ := bind_eq_ok.mp h
    obtain rfl := Except.ok.inj h
    have hlt : lit "not_dispatched" < lit "requested" := by decide
    exact ⟨by simpa [Descending] using lifecycleRecord_lt hnotDispatched hrequested hlt, by simp⟩
  | none =>
    rw [hreason] at h
    obtain ⟨payload', -, h⟩ := bind_eq_ok.mp h
    obtain ⟨dispatched, hdispatched, h⟩ := bind_eq_ok.mp h
    have hlt : lit "dispatched" < lit "requested" := by decide
    have hdispatchedFirst := lifecycleRecord_lt hdispatched hrequested hlt
    cases hstatus : outcome.acknowledgementStatus with
    | none =>
      rw [hstatus] at h
      obtain rfl := Except.ok.inj h
      exact ⟨by simpa [Descending] using hdispatchedFirst, by simp⟩
    | some status =>
      rw [hstatus] at h
      obtain ⟨payload'', -, h⟩ := bind_eq_ok.mp h
      obtain ⟨acknowledged, hacknowledged, h⟩ := bind_eq_ok.mp h
      obtain rfl := Except.ok.inj h
      have hlt' : lit "acknowledged" < lit "dispatched" := by decide
      have hacknowledgedFirst := lifecycleRecord_lt hacknowledged hdispatched hlt'
      refine ⟨?_, by simp⟩
      simp only [Descending, List.pairwise_cons, List.mem_cons, List.not_mem_nil, or_false,
        forall_eq_or_imp, forall_eq, IsEmpty.forall_iff, implies_true, List.Pairwise.nil, and_true]
      have hlt'' : lit "acknowledged" < lit "requested" := by decide
      exact ⟨⟨hdispatchedFirst, lifecycleRecord_lt hacknowledged hrequested hlt''⟩,
        hacknowledgedFirst⟩

/-! ## After the import -/

theorem zipWith_importedOutcome_events {records : List EvidenceRecord} {new : List EventEnvelope}
    (h : new.length = records.length) :
    List.Forall₂ (fun o e => o.eventId = some e.eventId)
      (List.zipWith importedOutcome records new) new := by
  induction records generalizing new with
  | nil =>
    obtain rfl := List.length_eq_zero_iff.mp h
    exact .nil
  | cons record records ih =>
    cases new with
    | nil => cases h
    | cons e new => exact .cons rfl (ih (Nat.succ.inj h))

theorem zipWith_importedOutcome_keys {records : List EvidenceRecord} {new : List EventEnvelope}
    (h : new.length = records.length) :
    (List.zipWith importedOutcome records new).map IngestOutcome.idempotencyKey
      = records.map EvidenceRecord.idempotencyKey := by
  induction records generalizing new with
  | nil => rfl
  | cons record records ih =>
    cases new with
    | nil => cases h
    | cons e new => exact congrArg (_ :: ·) (ih (Nat.succ.inj h))

/-- The import persisted one event for each record, in the order of the records, each the parent of
the next. -/
def PersistedInOrder (P : Platform) (content content' : Content) (records : List EvidenceRecord)
    (outcomes : List IngestOutcome) : Prop :=
  ∃ es new, iterEvents P content = .ok es ∧ iterEvents P content' = .ok (es ++ new) ∧
    ParentChain new ∧ outcomes.length = records.length ∧
    List.Forall₂ (fun o e => o.eventId = some e.eventId) outcomes new ∧
    outcomes.map IngestOutcome.idempotencyKey = records.map EvidenceRecord.idempotencyKey

/-- The import of a nonempty batch that imports all of it. -/
theorem persistedInOrder_of_import {normalizer : EvidenceNormalizer}
    {existingEvents : List EventEnvelope} {content content' : Content}
    {records : List EvidenceRecord} {outcomes : List IngestOutcome} (hne : records ≠ [])
    (hrooted : normalizer.rootEventId ≠ none)
    (himport : importEvidenceBatch P policy normalizer existingEvents content records
      = (.ok outcomes, content'))
    (hall : ∀ o ∈ outcomes, o.status = .imported) :
    PersistedInOrder P content content' (orderedRecords records) outcomes := by
  unfold importEvidenceBatch at himport
  cases hrun : importBatchRecords P policy (existingIdempotencyEntries existingEvents)
    ⟨normalizer, content, [], []⟩ (orderedRecords records) with
  | raised exc s =>
    rw [hrun] at himport
    cases himport
  | next s =>
    rw [hrun] at himport
    obtain ⟨houtcomes, rfl⟩ := Prod.mk.inj himport
    obtain rfl := Except.ok.inj houtcomes
    have hwritten : ∃ es, Written P content es := by
      have hperm : (orderedRecords records).Perm records := List.perm_insertionSort _ records
      cases hordered : orderedRecords records with
      | nil =>
        rw [hordered] at hperm
        exact absurd hperm.nil_eq.symm hne
      | cons record rest =>
        rw [hordered] at hrun
        obtain ⟨_, _, _, _, _, -, happend, -⟩ := importBatchRecords_cons_imported hrun hall
        obtain ⟨es, hv⟩ := verified_of_appendEvent happend
        exact ⟨es, hv.written⟩
    obtain ⟨es, hes⟩ := hwritten
    obtain ⟨new, hnew, hlength, houtcomes, hchain, -⟩ :=
      importBatchRecords_imported hrun hall hrooted hes
    rw [List.nil_append] at houtcomes
    refine ⟨es, new, hes.iterEvents, hnew.iterEvents, hchain, ?_, ?_, ?_⟩
    · simp [houtcomes, hlength]
    · rw [houtcomes]
      exact zipWith_importedOutcome_events hlength
    · rw [houtcomes]
      exact zipWith_importedOutcome_keys hlength

/-- A list without repetitions that reads the same backwards has one item at most. -/
theorem length_le_one_of_eq_reverse {α : Type} {xs : List α} (hnodup : xs.Nodup)
    (h : xs = xs.reverse) : xs.length ≤ 1 := by
  by_contra hlong
  have hfirst : xs[0]? = xs[xs.length - 1]? := by
    conv_lhs => rw [h]
    rw [List.getElem?_reverse (by omega), Nat.sub_zero]
  exact List.nodup_iff_getElem?_ne_getElem?.mp hnodup 0 (xs.length - 1) (by omega) (by omega) hfirst

/-- The lifecycle records of a call are never persisted in the order of the lifecycle: an import by
a rooted normalizer that imports all of them persists them backwards. -/
theorem lifecycle_import_reversed {i : FrameworkToolInvocation} {outcome : FrameworkOutcome}
    {sortKeyPrefix : Str} {records : List EvidenceRecord}
    (hrecords : frameworkLifecycleRecords P i outcome sortKeyPrefix = .ok records)
    {normalizer : EvidenceNormalizer} (hrooted : normalizer.rootEventId ≠ none)
    {existingEvents : List EventEnvelope} {content content' : Content}
    {outcomes : List IngestOutcome}
    (himport : importEvidenceBatch P policy normalizer existingEvents content records
      = (.ok outcomes, content'))
    (hall : ∀ o ∈ outcomes, o.status = .imported) :
    PersistedInOrder P content content' records.reverse outcomes ∧
      ¬ PersistedInOrder P content content' records outcomes := by
  obtain ⟨hdescending, hlength⟩ := descending_lifecycle hrecords
  have hne : records ≠ [] := by
    rintro rfl
    simp at hlength
  have hreverse := persistedInOrder_of_import hne hrooted himport hall
  rw [orderedRecords_eq_reverse hdescending] at hreverse
  refine ⟨hreverse, ?_⟩
  rintro ⟨-, -, -, -, -, -, -, hkeys⟩
  obtain ⟨-, -, -, -, -, -, -, hreverseKeys⟩ := hreverse
  have hkeysNodup : (records.map EvidenceRecord.idempotencyKey).Nodup := by
    rw [List.Nodup, List.pairwise_map]
    exact hdescending.imp fun h => h.2.symm
  rw [hkeys, List.map_reverse] at hreverseKeys
  have := length_le_one_of_eq_reverse hkeysNodup hreverseKeys
  rw [List.length_map] at this
  omega

/-! ## A call that policy refuses -/

/-- A normalizer that has recorded the start of a run, and the journal of that event. -/
def startedRun (P : Platform) : EvidenceNormalizer × Content :=
  match EvidenceNormalizer.record P (lit "agent.run.started") [] {}
    (sampleNormalizer ["start", "first", "second"]) with
  | (.ok event, normalizer) => (normalizer, (appendEvent P (.default P) none event).2)
  | (.error _, normalizer) => (normalizer, none)

def refusedCall : FrameworkToolInvocation where
  descriptor :=
    { framework := .shell, toolName := sampleText "ls", description := []
      inputSchema := emptyPayload, serverIdentity := none, outputSchema := none, version := none
      annotations := emptyPayload, metadata := emptyPayload }
  invocationId := sampleText "i"
  actionType := sampleText "run"
  argumentsDigest := sampleText "d"
  resources := []
  delegatedIdentity := none
  attributes := emptyPayload

def refusal : FrameworkOutcome := { notDispatchedReason := some (lit "deny") }

def importRefusal (P : Platform) (records : List EvidenceRecord) :
    Except PyError (List IngestOutcome) × Content :=
  importEvidenceBatch P (.default P) (startedRun P).1 [] (startedRun P).2 records

/-- Both records are imported; the types of the events that are then in the journal. -/
theorem importRefusal_types :
    let P := Platform.checksummed
    (do
      let records ← frameworkLifecycleRecords P refusedCall refusal []
      let outcomes ← (importRefusal P records).1
      let events ← iterEvents P (importRefusal P records).2
      .ok (outcomes.all fun o => o.status = .imported, events.map fun e => e.eventType.val))
    = Except.ok (true, [lit "agent.run.started", lit "tool.execution.not_dispatched",
        lit "tool.execution.requested"]) := by
  decide +kernel

theorem lifecycle_import_reversed_sample :
    let P := Platform.checksummed
    ∃ records outcomes content', frameworkLifecycleRecords P refusedCall refusal [] = .ok records ∧
      importRefusal P records = (.ok outcomes, content') ∧
      (∀ o ∈ outcomes, o.status = .imported) ∧
      PersistedInOrder P (startedRun P).2 content' records.reverse outcomes ∧
        ¬ PersistedInOrder P (startedRun P).2 content' records outcomes := by
  intro P
  obtain ⟨records, hrecords, h⟩ := bind_eq_ok.mp importRefusal_types
  obtain ⟨outcomes, houtcomes, h⟩ := bind_eq_ok.mp h
  obtain ⟨events, -, h⟩ := bind_eq_ok.mp h
  have hall : ∀ o ∈ outcomes, o.status = .imported := by
    simpa using (Prod.mk.inj (Except.ok.inj h)).1
  have himport : importRefusal P records = (.ok outcomes, (importRefusal P records).2) :=
    Prod.ext houtcomes rfl
  have hrooted : (startedRun P).1.rootEventId ≠ none := by decide +kernel
  obtain ⟨hreverse, hnot⟩ := lifecycle_import_reversed hrecords hrooted himport hall
  exact ⟨records, outcomes, _, hrecords, himport, hall, hreverse, hnot⟩

/-- The request of a refused call stands behind the refusal. -/
theorem refusal_persisted_before_request :
    let P := Platform.checksummed
    ∃ records outcomes events, frameworkLifecycleRecords P refusedCall refusal [] = .ok records ∧
      (importRefusal P records).1 = .ok outcomes ∧ (∀ o ∈ outcomes, o.status = .imported) ∧
      iterEvents P (importRefusal P records).2 = .ok events ∧
      records.map EvidenceRecord.eventType
        = [lit "tool.execution.requested", lit "tool.execution.not_dispatched"] ∧
      events.map (fun e => e.eventType.val) = [lit "agent.run.started",
        lit "tool.execution.not_dispatched", lit "tool.execution.requested"] := by
  intro P
  obtain ⟨records, hrecords, h⟩ := bind_eq_ok.mp importRefusal_types
  obtain ⟨outcomes, houtcomes, h⟩ := bind_eq_ok.mp h
  obtain ⟨events, hevents, h⟩ := bind_eq_ok.mp h
  obtain ⟨hall, htypes⟩ := Prod.mk.inj (Except.ok.inj h)
  refine ⟨records, outcomes, events, hrecords, houtcomes, by simpa using hall, hevents, ?_, htypes⟩
  have hlisted : (frameworkLifecycleRecords P refusedCall refusal []).map
      (List.map EvidenceRecord.eventType)
      = .ok [lit "tool.execution.requested", lit "tool.execution.not_dispatched"] := by
    decide +kernel
  rw [hrecords] at hlisted
  exact Except.ok.inj hlisted

end ActionLineage
