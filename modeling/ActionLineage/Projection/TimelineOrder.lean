import ActionLineage.Journal.Append
import ActionLineage.Projection.Sqlite

/-!
# The order of a timeline

The projection stores timestamps as text and lets SQLite compare them, so a timeline is in text
order. Text and instants disagree in one case only: two timestamps of one second of which exactly
one is whole (`DateTime.isoZ_lt_of_sameFraction`, `DateTime.isoZ_lt_of_whole`). A timeline is
therefore in the order of instants exactly when the records it shows have no such pair
(`timeline_order_iff`).
-/

namespace ActionLineage

open Py

variable {P : Platform}

/-- A journal record: an event and its record number. -/
abbrev JournalRecord := EventEnvelope × ℕ

/-! ## Rows of a verified journal -/

theorem decodeUtf8_utf8Bytes {t : Str} (h : SurrogateFree t) : decodeUtf8 (utf8Bytes t) = .ok t := by
  simp [decodeUtf8, utf8Decode_utf8Bytes, Option.filter, h]

/-- The row of a journal record, and what it shows of it. -/
structure RowOf (P : Platform) (p : JournalRecord) (r : EventRow) : Prop where
  values : eventProjectionValues P p.1 p.2 = .ok r
  view : ∃ t, timelineEventFromRow P r = .ok t
  eventId : r.eventId = p.1.eventId.val
  occurredAt : r.occurredAt = p.1.occurredAt.isoZ
  traceId : r.traceId = p.1.correlation.traceId.val
  runId : r.runId = p.1.correlation.runId.val
  sequence : r.sequence = p.1.causality.sequence
  recordNumber : r.journalRecordNumber = p.2

/-- The document stored with a row is read back as the event's object, its keys sorted. -/
theorem storedDocument {e : EventEnvelope} {b : Bytes} (hb : serializeEvent P e = .ok b) :
    ∃ o text, eventToDict P e = .ok (e.items o) ∧ (Value.dict (e.items o)).WellFormed ∧
      decodeUtf8 b = .ok text ∧
      loadsText (.plain P.recursionLimit) text =
        .ok (.dict (sortPairs ((e.items o).map fun p => (p.1, p.2.sortKeys)))) := by
  obtain ⟨o, hdict, ho, hdump, hfits⟩ := eventToDict_of_serializes hb
  obtain ⟨text, htext, hfree, rfl⟩ := dumpBytes_eq_ok.mp hdump
  have hwf : (Value.dict (e.items o)).WellFormed :=
    items_wellFormed e (P.dumpPayload_wellFormed _ _ e.payload.wellFormed ho)
  have hheight := hfits.height_le
  have hsorted := Value.height_sortKeys (Value.dict (e.items o))
  have hlimit := P.recursionLimit_ge
  simp only [JsonLimits.default, DEFAULT_JSON_MAX_DEPTH, Nat.zero_add] at hheight
  have hload : loadsText (.plain P.recursionLimit) text = .ok (Value.dict (e.items o)).sortKeys :=
    loadsText_emit (Scan.keepsObjects_plain _) (Value.wellFormed_sortKeys.mpr hwf)
      (by simp only [Hooks.plain]; omega) htext
  rw [Value.sortKeys_dict] at hload
  exact ⟨o, text, hdict, hwf, decodeUtf8_utf8Bytes hfree, hload⟩

/-- A written event has a row. -/
theorem exists_rowOf {e : EventEnvelope} (h : ∃ b, serializeEvent P e = .ok b) (n : ℕ) :
    ∃ r, RowOf P (e, n) r := by
  obtain ⟨b, hb⟩ := h
  obtain ⟨o, text, hdict, -, htext, hload⟩ := storedDocument hb
  have hrow : eventProjectionValues P e n = .ok _ :=
    bind_eq_ok.mpr ⟨_, hdict, bind_eq_ok.mpr ⟨_, hb, bind_eq_ok.mpr ⟨text, htext, rfl⟩⟩⟩
  exact ⟨_, hrow, ⟨_, bind_eq_ok.mpr ⟨_, mapError_eq_ok.mpr hload, rfl⟩⟩, rfl, rfl, rfl, rfl, rfl, rfl⟩

/-- The events of a journal with distinct ids are indexed one by one. -/
theorem indexEvents_eq_ok {es : List EventEnvelope} {rows : List EventRow} {n : ℕ}
    (hwritten : ∀ e ∈ es, ∃ b, serializeEvent P e = .ok b)
    (hhash : ∀ e ∈ es, e.integrity.eventHash.isSome = true)
    (hids : (es.map (·.eventId)).Nodup) (hnew : ∀ e ∈ es, ∀ r ∈ rows, r.eventId ≠ e.eventId.val) :
    ∃ more, indexEvents P rows n es = .ok (rows ++ more) ∧
      List.Forall₂ (RowOf P) (es.zipIdx n) more := by
  induction es generalizing rows n with
  | nil => exact ⟨[], by simp [indexEvents], .nil⟩
  | cons e es ih =>
    obtain ⟨r, hr⟩ := exists_rowOf (hwritten e (by simp)) n
    rw [List.map_cons, List.nodup_cons] at hids
    have hfind : rows.find? (fun r => r.eventId == e.eventId.val) = none := by
      rw [List.find?_eq_none]
      intro r hr
      simpa using hnew e (by simp) r hr
    have hindex : indexEvent P rows e n = .ok (true, rows ++ [r]) := by
      simp only [indexEvent, require, hhash e (by simp), if_true, bind, Except.bind, hr.values,
        hfind]
    obtain ⟨more, hmore, hrel⟩ := @ih (rows ++ [r]) (n + 1)
      (fun f hf => hwritten f (by simp [hf])) (fun f hf => hhash f (by simp [hf])) hids.2
      (fun f hf q hq => by
        rcases List.mem_append.mp hq with hq | hq
        · exact hnew f (by simp [hf]) q hq
        · rw [List.mem_singleton.mp hq, hr.eventId]
          intro heq
          exact hids.1 (List.mem_map.mpr ⟨f, hf, (Subtype.ext heq).symm⟩))
    refine ⟨r :: more, ?_, ?_⟩
    · rw [indexEvents, hindex]
      simp only [bind, Except.bind, hmore, List.append_assoc, List.singleton_append]
    · rw [List.zipIdx_cons]
      exact .cons hr hrel

/-- A verified journal with distinct event ids has a projection, a row for each record. -/
theorem rebuildProjection_of_verified {content : Content} {es : List EventEnvelope}
    (hv : Verified P content es) (hids : (es.map (·.eventId)).Nodup) :
    ∃ rows, rebuildProjection P content = .ok rows ∧
      List.Forall₂ (RowOf P) (es.zipIdx 1) rows := by
  have hwritten : ∀ e ∈ es, ∃ b, serializeEvent P e = .ok b := by
    intro e he
    obtain ⟨-, h, -, hcompute⟩ := hv.forall_event e he
    exact hv.serializes e he
  have hhash : ∀ e ∈ es, e.integrity.eventHash.isSome = true := by
    intro e he
    obtain ⟨-, h, hself, -⟩ := hv.forall_event e he
    rw [hself]
    rfl
  obtain ⟨rows, hrows, hrel⟩ := @indexEvents_eq_ok P es [] 1 hwritten hhash hids (by simp)
  refine ⟨rows, ?_, hrel⟩
  simp only [rebuildProjection, snapshot_of_verified hv, bind, Except.bind, verifiedSnapshot,
    VerifiedJournalSnapshot.ok, VerifiedJournalSnapshot.recordCount, require, if_true, hrows,
    List.nil_append, decide_true]

/-! ## Queries -/

theorem selectOrdered_perm (rows : List EventRow) (condition : EventRow → Bool) :
    (selectOrdered rows condition).Perm (rows.filter condition) := List.perm_insertionSort _ _

theorem selectOrdered_pairwise (rows : List EventRow) (condition : EventRow → Bool) :
    (selectOrdered rows condition).Pairwise fun a b => a.orderKey ≤ b.orderKey := by
  have : Std.Total fun a b : EventRow => a.orderKey ≤ b.orderKey := ⟨fun a b => le_total _ _⟩
  have : IsTrans EventRow fun a b => a.orderKey ≤ b.orderKey := ⟨fun _ _ _ => le_trans⟩
  exact List.pairwise_insertionSort _ _

theorem timelineEventFromRow_eq_ok {r : EventRow} {t : TimelineEvent}
    (h : timelineEventFromRow P r = .ok t) :
    t.journalRecordNumber = r.journalRecordNumber ∧ t.eventId = r.eventId ∧
      t.occurredAt = r.occurredAt ∧ t.sequence = r.sequence := by
  obtain ⟨v, -, h⟩ := bind_eq_ok.mp h
  cases v with
  | dict kvs =>
    obtain rfl := Except.ok.inj h
    exact ⟨rfl, rfl, rfl, rfl⟩
  | _ => cases h

/-- The timeline event of a journal record. -/
def timelineView (P : Platform) (p : JournalRecord) : Except PyError TimelineEvent := do
  timelineEventFromRow P (← eventProjectionValues P p.1 p.2)

theorem RowOf.timelineView {p : JournalRecord} {r : EventRow} (h : RowOf P p r) :
    timelineView P p = timelineEventFromRow P r := by
  simp only [ActionLineage.timelineView, h.values, bind, Except.bind]

/-- What SQLite orders a record by. -/
def textKey (p : JournalRecord) : OrderKey :=
  toLex (utf8Bytes p.1.occurredAt.isoZ,
    toLex (p.1.causality.sequence, toLex (p.2, utf8Bytes p.1.eventId.val)))

/-- What a timeline is to be ordered by: instant, sequence, record number, event id. -/
def instantKey (p : JournalRecord) : DateTime ×ₗ ℕ ×ₗ ℕ ×ₗ Bytes :=
  toLex (p.1.occurredAt, toLex (p.1.causality.sequence, toLex (p.2, utf8Bytes p.1.eventId.val)))

theorem RowOf.orderKey {p : JournalRecord} {r : EventRow} (h : RowOf P p r) :
    r.orderKey = textKey p := by
  rw [EventRow.orderKey, h.occurredAt, h.sequence, h.recordNumber, h.eventId, textKey]

/-- A query shows the records it selects, in text order. -/
theorem select_views {records : List JournalRecord} {rows : List EventRow}
    (hrows : List.Forall₂ (RowOf P) records rows) {condition : EventRow → Bool}
    {wanted : JournalRecord → Bool} (hwanted : ∀ p r, RowOf P p r → wanted p = condition r) :
    ∃ picked events, (selectOrdered rows condition).mapM (timelineEventFromRow P) = .ok events ∧
      picked.Perm (records.filter wanted) ∧
      List.Forall₂ (fun p t => timelineView P p = .ok t) picked events ∧
      picked.Pairwise fun p q => textKey p ≤ textKey q := by
  obtain ⟨picked, hperm, hpicked⟩ := exists_perm_forall₂ (forall₂_filter hwanted hrows)
    (selectOrdered_perm rows condition).symm
  have hview : ∀ r ∈ selectOrdered rows condition,
      ∃ t, timelineEventFromRow P r = .ok t ∧ True := by
    intro r hr
    obtain ⟨p, -, hp⟩ := exists_of_forall₂ hpicked hr
    obtain ⟨t, ht⟩ := hp.view
    exact ⟨t, ht, trivial⟩
  obtain ⟨events, hevents, -⟩ := exists_forall₂ hview
  refine ⟨picked, events, mapM_eq_ok.mpr hevents, hperm, ?_, ?_⟩
  · exact forall₂_comp (fun _ _ _ hp ht => hp.timelineView.trans ht) hpicked hevents
  · refine forall₂_pairwise (fun _ _ _ _ hp hq hle => ?_) hpicked (selectOrdered_pairwise rows condition)
    rwa [hp.orderKey, hq.orderKey] at hle

/-! ## Text order and the order of instants -/

/-- Two timestamps of one second are both whole or both fractional. -/
def SameForm (p q : JournalRecord) : Prop :=
  p.1.occurredAt.SameSecond q.1.occurredAt → p.1.occurredAt.SameFraction q.1.occurredAt

/-- The events show exactly these records, in the order of their instants. -/
def InTimelineOrder (P : Platform) (records : List JournalRecord) (events : List TimelineEvent) :
    Prop :=
  ∃ picked, picked.Perm records ∧ List.Forall₂ (fun p t => timelineView P p = .ok t) picked events ∧
    picked.Pairwise fun p q => instantKey p ≤ instantKey q

theorem utf8Bytes_isoZ_lt {a b : DateTime} : utf8Bytes a.isoZ < utf8Bytes b.isoZ ↔ a.isoZ < b.isoZ :=
  utf8Bytes_lt_of_ascii a.isoZ_ascii b.isoZ_ascii

theorem instantKey_le_of_textKey_le {p q : JournalRecord} (hform : SameForm p q)
    (h : textKey p ≤ textKey q) : instantKey p ≤ instantKey q := by
  rw [textKey, textKey, Prod.Lex.toLex_le_toLex] at h
  rw [instantKey, instantKey, Prod.Lex.toLex_le_toLex]
  refine h.imp (fun hlt => ?_) fun ⟨heq, hle⟩ => ⟨?_, hle⟩
  · exact (DateTime.isoZ_lt_of_sameFraction hform).mp (utf8Bytes_isoZ_lt.mp hlt)
  · exact DateTime.isoZ_injective (utf8Bytes_injective heq)

/-- A record whose text sorts after that of a later instant. -/
theorem textKey_lt_of_whole {p q : JournalRecord}
    (hs : p.1.occurredAt.SameSecond q.1.occurredAt) (hp : p.1.occurredAt.micro = 0)
    (hq : q.1.occurredAt.micro ≠ 0) : textKey q < textKey p ∧ instantKey p < instantKey q := by
  obtain ⟨hinstant, htext⟩ := DateTime.isoZ_lt_of_whole hs hp hq
  simp only [textKey, instantKey, Prod.Lex.toLex_lt_toLex]
  exact ⟨Or.inl (utf8Bytes_isoZ_lt.mpr htext), Or.inl hinstant⟩

theorem timelineView_textKey {p q : JournalRecord} {t : TimelineEvent}
    (hp : timelineView P p = .ok t) (hq : timelineView P q = .ok t) : textKey p = textKey q := by
  have hfields : ∀ {p : JournalRecord}, timelineView P p = .ok t →
      t.occurredAt = p.1.occurredAt.isoZ ∧ t.sequence = p.1.causality.sequence ∧
        t.journalRecordNumber = p.2 ∧ t.eventId = p.1.eventId.val := by
    intro p hp
    obtain ⟨r, hr, ht⟩ := bind_eq_ok.mp hp
    obtain ⟨hn, hid, hocc, hseq⟩ := timelineEventFromRow_eq_ok ht
    obtain ⟨o, ho, hr⟩ := bind_eq_ok.mp hr
    obtain ⟨b, -, hr⟩ := bind_eq_ok.mp hr
    obtain ⟨text, -, hr⟩ := bind_eq_ok.mp hr
    obtain rfl := Except.ok.inj hr
    obtain ⟨payload, -, rfl, -⟩ := eventToDict_eq_ok.mp ho
    exact ⟨hocc, hseq, hn, hid⟩
  obtain ⟨h1, h2, h3, h4⟩ := hfields hp
  obtain ⟨h1', h2', h3', h4'⟩ := hfields hq
  rw [textKey, textKey, ← h1, ← h2, ← h3, ← h4, ← h1', ← h2', ← h3', ← h4']

/-- Events in text order are in the order of instants exactly when no two of the records mix a
whole and a fractional timestamp of one second. -/
theorem inTimelineOrder_iff {records picked : List JournalRecord} {events : List TimelineEvent}
    (hperm : picked.Perm records)
    (hview : List.Forall₂ (fun p t => timelineView P p = .ok t) picked events)
    (htext : picked.Pairwise fun p q => textKey p ≤ textKey q) :
    InTimelineOrder P records events ↔ ∀ p ∈ records, ∀ q ∈ records, SameForm p q := by
  constructor
  · rintro ⟨picked', hperm', hview', hinstant⟩
    -- the same events in the same order, so the text order holds of these records too
    have hback : List.Forall₂ (fun t p => timelineView P p = .ok t) events picked := hview.flip
    have hkeys : List.Forall₂ (fun p q : JournalRecord => textKey p = textKey q) picked' picked := by
      refine forall₂_comp ?_ hview' hback
      intro p t q hp hq
      exact timelineView_textKey hp hq
    have htext' : picked'.Pairwise fun p q => textKey p ≤ textKey q :=
      forall₂_pairwise (fun _ _ _ _ hp hq hle => (hp.le.trans hle).trans hq.ge) hkeys htext
    have hwhole : ∀ p ∈ records, ∀ q ∈ records,
        p.1.occurredAt.SameSecond q.1.occurredAt → p.1.occurredAt.micro = 0 →
          q.1.occurredAt.micro = 0 := by
      intro p hp q hq hs hp0
      by_contra hq0
      obtain ⟨htlt, hilt⟩ := textKey_lt_of_whole hs hp0 hq0
      have hle := pairwise_agree htext' hinstant (hperm'.mem_iff.mpr hp) (hperm'.mem_iff.mpr hq) hilt
      exact absurd htlt (not_lt.mpr hle)
    intro p hp q hq hs
    have hs' : q.1.occurredAt.SameSecond p.1.occurredAt := by
      obtain ⟨h1, h2, h3, h4, h5, h6⟩ := hs
      exact ⟨h1.symm, h2.symm, h3.symm, h4.symm, h5.symm, h6.symm⟩
    exact ⟨hwhole p hp q hq hs, hwhole q hq p hp hs'⟩
  · intro hform
    refine ⟨picked, hperm, hview, htext.imp_of_mem fun hp hq hle => ?_⟩
    exact instantKey_le_of_textKey_le
      (hform _ (hperm.mem_iff.mp hp) _ (hperm.mem_iff.mp hq)) hle

/-! ## Timelines -/

/-- The records a selector asks for. -/
def Selector.wants (selector : Selector) (p : JournalRecord) : Bool :=
  selector.column p.1 == selector.value

/-- The records the filters let through. -/
def TimelineFilters.wants (P : Platform) (filters : TimelineFilters) (p : JournalRecord) : Bool :=
  match timelineView P p with
  | .ok t => timelineEventMatches t filters
  | .error _ => false

theorem Selector.wants_eq (selector : Selector) (p : JournalRecord) (r : EventRow)
    (h : RowOf P p r) : selector.wants p = selector.matchesRow r := by
  cases selector with
  | traceId v => rw [wants, matchesRow, h.traceId]; rfl
  | runId v => rw [wants, matchesRow, h.runId]; rfl

theorem column_surrogateFree {e : EventEnvelope} (h : ∃ b, serializeEvent P e = .ok b)
    (selector : Selector) : SurrogateFree (selector.column e) := by
  obtain ⟨o, -, -, hdump⟩ := serializeEvent_isOk_iff.mp h
  have hcorrelation : Dumpable e.correlation.json :=
    ((Value.all_dict _).mp hdump).2 (lit "correlation", e.correlation.json)
      (by simp [EventEnvelope.items])
  have hmembers := ((Value.all_dict _).mp hcorrelation).2
  cases selector with
  | traceId v =>
    exact hmembers (lit "trace_id", .str e.correlation.traceId.val) (by simp [Correlation.items])
  | runId v =>
    exact hmembers (lit "run_id", .str e.correlation.runId.val) (by simp [Correlation.items])

/-- For a verified journal with distinct event ids, a timeline is in the order of instants exactly
when no two of the records it asks for mix a whole and a fractional timestamp of one second. -/
theorem timeline_order_iff {content : Content} {s : VerifiedJournalSnapshot}
    (hs : verifiedJournalSnapshot P content none .null = .ok s) (hok : s.ok = true)
    (hids : (s.events.map (·.eventId)).Nodup) :
    ∃ rows, rebuildProjection P content = .ok rows ∧
      (∀ selector : Selector,
        (∀ events, queryTimeline P rows selector = .ok events →
          InTimelineOrder P ((s.events.zipIdx 1).filter selector.wants) events) ↔
        ∀ p ∈ (s.events.zipIdx 1).filter selector.wants,
          ∀ q ∈ (s.events.zipIdx 1).filter selector.wants, SameForm p q) ∧
      ∀ filters : TimelineFilters, ∃ events, queryFilteredTimeline P rows filters = .ok events ∧
        (InTimelineOrder P ((s.events.zipIdx 1).filter (filters.wants P)) events ↔
        ∀ p ∈ (s.events.zipIdx 1).filter (filters.wants P),
          ∀ q ∈ (s.events.zipIdx 1).filter (filters.wants P), SameForm p q) := by
  obtain ⟨es, hv, hsnapshot⟩ := snapshot_ok_iff.mp ⟨hs, hok⟩
  obtain rfl : es = s.events := by rw [hsnapshot]; rfl
  obtain ⟨rows, hrebuild, hrows⟩ := rebuildProjection_of_verified hv hids
  refine ⟨rows, hrebuild, fun selector => ?_, fun filters => ?_⟩
  · obtain ⟨picked, events, hevents, hperm, hview, htext⟩ :=
      select_views hrows selector.wants_eq
    rw [← inTimelineOrder_iff hperm hview htext]
    cases hencode : utf8Encode selector.value with
    | some b =>
      have hquery : queryTimeline P rows selector = .ok events := by
        simp only [queryTimeline, hencode, Option.elim_some, bind, Except.bind, hevents]
      simp only [hquery, Except.ok.injEq, forall_eq']
    | none =>
      -- no event has a selector value that cannot be encoded
      have hquery : queryTimeline P rows selector = .error .unicodeEncodeError := by
        simp only [queryTimeline, hencode, Option.elim_none, bind, Except.bind]
      simp only [hquery, reduceCtorEq, false_implies, implies_true, true_iff]
      rw [inTimelineOrder_iff hperm hview htext]
      intro p hp
      obtain ⟨hp, hwant⟩ := List.mem_filter.mp hp
      have hvalue : selector.column p.1 = selector.value := by simpa [Selector.wants] using hwant
      have hfree := column_surrogateFree (hv.serializes p.1 (List.fst_mem_of_mem_zipIdx hp)) selector
      rw [hvalue] at hfree
      exact absurd hfree (utf8Encode_eq_none.mp hencode)
  · obtain ⟨picked, events, hevents, hperm, hview, htext⟩ :=
      @select_views P _ _ hrows (fun _ => true) (fun _ => true) fun _ _ _ => rfl
    rw [List.filter_true] at hperm
    have hmatches : ∀ (p : JournalRecord) (t : TimelineEvent), timelineView P p = .ok t →
        filters.wants P p = timelineEventMatches t filters := by
      intro p t ht
      rw [TimelineFilters.wants, ht]
    refine ⟨_, bind_eq_ok.mpr ⟨events, hevents, rfl⟩, ?_⟩
    exact inTimelineOrder_iff (hperm.filter _) (forall₂_filter hmatches hview) (htext.filter _)

theorem timeline_order_iff_sample :
    ∃ content s, verifiedJournalSnapshot .checksummed content none .null = .ok s ∧
      s.events.length = 1 ∧ ∃ rows, rebuildProjection .checksummed content = .ok rows ∧
      (∀ selector : Selector,
        (∀ events, queryTimeline .checksummed rows selector = .ok events →
          InTimelineOrder .checksummed ((s.events.zipIdx 1).filter selector.wants) events) ↔
        ∀ p ∈ (s.events.zipIdx 1).filter selector.wants,
          ∀ q ∈ (s.events.zipIdx 1).filter selector.wants, SameForm p q) ∧
      ∀ filters : TimelineFilters, ∃ events,
        queryFilteredTimeline .checksummed rows filters = .ok events ∧
        (InTimelineOrder .checksummed
          ((s.events.zipIdx 1).filter (filters.wants .checksummed)) events ↔
        ∀ p ∈ (s.events.zipIdx 1).filter (filters.wants .checksummed),
          ∀ q ∈ (s.events.zipIdx 1).filter (filters.wants .checksummed), SameForm p q) := by
  obtain ⟨content, r, hv⟩ := exists_verified_sample
  have hs := snapshot_of_verified hv
  exact ⟨content, _, hs, rfl, timeline_order_iff hs rfl (by simp [verifiedSnapshot])⟩

/-- Half a second after `firstEvent`. -/
def halfSecondEvent : EventEnvelope :=
  { secondEvent with occurredAt := { sampleTime with micro := 500000, micro_lt := by decide } }

/-- A timeline that shows the later of two events first. -/
theorem timeline_against_instants :
    let P := Platform.checksummed
    let first := appendEvent P (.default P) none firstEvent
    let second := appendEvent P (.default P) first.2 halfSecondEvent
    (do
      let rows ← rebuildProjection P second.2
      let events ← queryTimeline P rows (.traceId (lit "t"))
      .ok (events.map fun t : TimelineEvent => (t.journalRecordNumber, t.occurredAt))) =
    .ok [(2, lit "2026-01-02T03:04:05.500000Z"), (1, lit "2026-01-02T03:04:05Z")] := by
  decide +kernel

end ActionLineage
