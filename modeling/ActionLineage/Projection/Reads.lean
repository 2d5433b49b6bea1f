import ActionLineage.Projection.Binding
import ActionLineage.Projection.TimelineOrder
import ActionLineage.Py.Reordering

/-!
# Reading through the verification

A timeline is only read from a database that has just been verified, in the same transaction. What
the database holds otherwise does not matter: a query that returns shows the records of the journal
(`readTimeline_shows`), and a journal that has changed by the end of the read is noticed
(`recheck_unchanged`).
-/

namespace ActionLineage

open Py

/-! ## Rows of a database -/

namespace SqlValue

/-- `cast(str, cell)`; a verified row has texts and integers where they are expected. -/
def castText : SqlValue → Str
  | text s => s
  | _ => []

/-- `cast(str | None, cell)`. -/
def castOptional : SqlValue → Option Str
  | text s => some s
  | _ => none

/-- `cast(int, cell)`. -/
def castNatural : SqlValue → Nat
  | integer i => i.toNat
  | _ => 0

end SqlValue

/-- A `str | None` that is not empty. -/
def nonEmptyText (s : Option Str) : Option Text :=
  s.bind fun s => if h : s ≠ [] then some ⟨s, h⟩ else none

namespace SqlRow

def cell (r : SqlRow) (k : Nat) : SqlValue := r.cells.getD k .null

/-- The row a query sees. -/
def projected (r : SqlRow) : EventRow where
  eventId := (r.cell 0).castText
  specVersion := (r.cell 1).castText
  eventType := (r.cell 2).castText
  occurredAt := (r.cell 3).castText
  observedAt := (r.cell 4).castText
  traceId := (r.cell 5).castText
  runId := (r.cell 6).castText
  spanId := nonEmptyText (r.cell 7).castOptional
  sessionId := nonEmptyText (r.cell 8).castOptional
  rootEventId := (r.cell 9).castText
  parentEventId := nonEmptyText (r.cell 10).castOptional
  sequence := (r.cell 11).castNatural
  eventHash := nonEmptyText (r.cell 12).castOptional
  previousEventHash := nonEmptyText (r.cell 13).castOptional
  verificationStatus := (r.cell 14).castOptional
  evidenceSubjectEventId := (r.cell 15).castOptional
  evidenceEventId := (r.cell 16).castOptional
  journalRecordNumber := (r.cell 17).castNatural
  eventJson := (r.cell 18).castText

end SqlRow

@[simp] theorem castOptional_ofOption (s : Option Str) :
    (SqlValue.ofOption .text s).castOptional = s := by
  cases s <;> rfl

@[simp] theorem nonEmptyText_ofOption (t : Option Text) :
    nonEmptyText (SqlValue.ofOption textCell t).castOptional = t := by
  cases t with
  | none => rfl
  | some t => exact dif_pos t.property

theorem projected_stored (r : EventRow) : r.stored.projected = r := by
  show EventRow.mk _ _ _ _ _ _ _
    (nonEmptyText (SqlValue.ofOption textCell r.spanId).castOptional)
    (nonEmptyText (SqlValue.ofOption textCell r.sessionId).castOptional) _
    (nonEmptyText (SqlValue.ofOption textCell r.parentEventId).castOptional) _
    (nonEmptyText (SqlValue.ofOption textCell r.eventHash).castOptional)
    (nonEmptyText (SqlValue.ofOption textCell r.previousEventHash).castOptional)
    (SqlValue.ofOption .text r.verificationStatus).castOptional
    (SqlValue.ofOption .text r.evidenceSubjectEventId).castOptional
    (SqlValue.ofOption .text r.evidenceEventId).castOptional _ _ = r
  simp only [nonEmptyText_ofOption, castOptional_ofOption]
  rfl

/-! ## Queries -/

/-- `_require_one_selector`. -/
def requireOneSelector (traceId runId : Option Str) : Except PyError Selector :=
  match traceId, runId with
  | some v, none => .ok (.traceId v)
  | none, some v => .ok (.runId v)
  | _, _ => .error (.projectionError "provide exactly one of trace_id or run_id")

section Read

variable (P : Platform) (R : PathResolver)

/-- `query_timeline` within its read transaction. -/
def readTimeline (db : ProjectionDatabase) (content : Content) (selector : Selector) :
    Except PyError (VerifiedProjectionSnapshot × List TimelineEvent) := do
  let verification ←
    (verifyProjectionStateOnConnection P R db content).mapError projectionStateFailure
  let events ← queryTimeline P (db.events.map SqlRow.projected) selector
  .ok (verification, events)

end Read

variable {P : Platform} {R : PathResolver}

/-- The events are the views of exactly the selected records, in text order. -/
def ShowsTimeline (P : Platform) (es : List EventEnvelope) (selector : Selector)
    (events : List TimelineEvent) : Prop :=
  ∃ picked, picked.Perm ((es.zipIdx 1).filter selector.wants) ∧
    List.Forall₂ (fun p t => timelineView P p = .ok t) picked events ∧
    picked.Pairwise fun p q => textKey p ≤ textKey q

/-- Rows with distinct record numbers have distinct places in a timeline. -/
theorem RowsOf.orderKey_nodup {n : ℕ} {es : List EventEnvelope} {rows : List EventRow}
    (h : RowsOf P n es rows) : (rows.map EventRow.orderKey).Nodup := by
  show (rows.map EventRow.orderKey).Pairwise (· ≠ ·)
  rw [List.pairwise_map]
  apply h.ordered.2.imp
  intro a b hlt hkey
  have hnumber : a.journalRecordNumber = b.journalRecordNumber :=
    congrArg (fun key : OrderKey => (ofLex (ofLex (ofLex key).2).2).1) hkey
  omega

/-- A query does not depend on the order in which the table holds its rows. -/
theorem RowsOf.selectOrdered_eq {n : ℕ} {es : List EventEnvelope} {rows rows' : List EventRow}
    (h : RowsOf P n es rows) (hperm : rows'.Perm rows) (condition : EventRow → Bool) :
    selectOrdered rows' condition = selectOrdered rows condition := by
  have hkeys : ((rows.filter condition).map EventRow.orderKey).Nodup :=
    h.orderKey_nodup.sublist (List.filter_sublist.map _)
  exact (insertionSort_eq_of_perm (hperm.filter condition).symm hkeys).symm

/-- The rows of written events show them. -/
theorem RowsOf.rowOf {n : ℕ} {es : List EventEnvelope} {rows : List EventRow}
    (h : RowsOf P n es rows) (hwritten : ∀ e ∈ es, ∃ b, serializeEvent P e = .ok b) :
    List.Forall₂ (RowOf P) (es.zipIdx n) rows := by
  induction es generalizing n rows with
  | nil =>
    cases h
    exact .nil
  | cons e es ih =>
    obtain ⟨r, more, hvalues, hmore, rfl⟩ := rowsOf_cons.mp h
    obtain ⟨r', hr'⟩ := exists_rowOf (hwritten e List.mem_cons_self) n
    obtain rfl := Except.ok.inj (hr'.values.symm.trans hvalues)
    rw [List.zipIdx_cons]
    exact .cons hr' (ih hmore fun f hf => hwritten f (List.mem_cons_of_mem e hf))

theorem journalSnapshot_of_verification {db : ProjectionDatabase} {content : Content}
    {v : VerifiedProjectionSnapshot}
    (h : verifyProjectionStateOnConnection P R db content = .ok v) :
    verifiedJournalSnapshot P content none .null = .ok v.journalSnapshot := by
  obtain ⟨_, -, h⟩ := bind_eq_ok.mp h
  obtain ⟨_, -, h⟩ := bind_eq_ok.mp h
  obtain ⟨_, -, h⟩ := bind_eq_ok.mp h
  obtain ⟨s, hs, h⟩ := bind_eq_ok.mp h
  obtain ⟨_, -, h⟩ := bind_eq_ok.mp h
  obtain ⟨_, -, h⟩ := bind_eq_ok.mp h
  obtain ⟨_, -, h⟩ := bind_eq_ok.mp h
  obtain ⟨_, -, h⟩ := bind_eq_ok.mp h
  obtain ⟨_, -, h⟩ := bind_eq_ok.mp h
  obtain ⟨_, -, h⟩ := bind_eq_ok.mp h
  obtain ⟨_, -, h⟩ := bind_eq_ok.mp h
  obtain ⟨_, -, h⟩ := bind_eq_ok.mp h
  obtain ⟨_, -, h⟩ := bind_eq_ok.mp h
  split at h
  · obtain ⟨isPrefix, -, h⟩ := bind_eq_ok.mp h
    split at h <;> cases h
  obtain ⟨_, -, h⟩ := bind_eq_ok.mp h
  obtain ⟨_, -, h⟩ := bind_eq_ok.mp h
  obtain ⟨_, -, h⟩ := bind_eq_ok.mp h
  obtain ⟨_, -, h⟩ := bind_eq_ok.mp h
  obtain ⟨_, -, h⟩ := bind_eq_ok.mp h
  obtain rfl := Except.ok.inj h
  exact hs

/-- Whatever the database holds, a timeline that is returned is the journal's. -/
theorem readTimeline_shows {db : ProjectionDatabase} {content : Content} {selector : Selector}
    {v : VerifiedProjectionSnapshot} {events : List TimelineEvent}
    (h : readTimeline P R db content selector = .ok (v, events)) :
    ∃ es, Verified P content es ∧ v.journalSnapshot = verifiedSnapshot P content es ∧
      ShowsTimeline P es selector events := by
  obtain ⟨verification, hverify, h⟩ := bind_eq_ok.mp h
  obtain ⟨shown, hquery, h⟩ := bind_eq_ok.mp h
  obtain ⟨rfl, rfl⟩ := Prod.mk.inj (Except.ok.inj h)
  have hverification := mapError_eq_ok.mp hverify
  obtain ⟨es, rows, hv, hrows, heq⟩ := rows_of_verified hverification
  refine ⟨es, hv, ?_, ?_⟩
  · have hsame := (journalSnapshot_of_verification hverification).symm.trans (snapshot_of_verified hv)
    exact Except.ok.inj hsame
  -- the table holds the rows of the records, in some order
  have hperm : (db.events.map SqlRow.projected).Perm rows := by
    have hsorted : (projectedRows db).Perm db.events := List.perm_insertionSort _ _
    rw [heq] at hsorted
    have hread := hsorted.symm.map SqlRow.projected
    rwa [List.map_map, show SqlRow.projected ∘ EventRow.stored = id from funext projected_stored,
      List.map_id] at hread
  obtain ⟨picked, shown', hshown, hpicked, hviews, hordered⟩ :=
    select_views (hrows.rowOf hv.serializes) selector.wants_eq
  obtain ⟨_, -, hquery⟩ := bind_eq_ok.mp hquery
  rw [hrows.selectOrdered_eq hperm, hshown] at hquery
  obtain rfl := Except.ok.inj hquery
  exact ⟨picked, hpicked, hviews, hordered⟩

end ActionLineage
