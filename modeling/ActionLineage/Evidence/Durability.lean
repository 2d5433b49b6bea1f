import ActionLineage.DurableLog
import ActionLineage.Evidence.BatchImport
import ActionLineage.Journal.VerifiedPrefix

/-!
# What interrupted writes leave

A call writes its records one line after the other, and the process can end after any of the bytes.
The journal is then a verified part followed by the beginning of one line (`HoldsLog`): the verifier
stops behind the verified part, every further call is refused until the verified prefix has been
exported and taken as the journal, and no event that was committed is lost. So the journal is a log
whose writes can be cut off (`journal_simulates`), and whatever a call returned as written is there
after any further steps (`journal_durable`).
-/

namespace ActionLineage

open Py DurableLog

/-- The calls that write to the journal. -/
inductive JournalCall
  | append (event : EventEnvelope)
  | importBatch (normalizer : EvidenceNormalizer) (existingEvents : List EventEnvelope)
      (records : List EvidenceRecord)
  | importAtomically (normalizer : EvidenceNormalizer) (records : List EvidenceRecord)

/-- The ids of the events reported as imported. -/
def importedIds (outcomes : List IngestOutcome) : List Text :=
  outcomes.filterMap fun outcome => if outcome.status = .imported then outcome.eventId else none

/-- What the caller of an import learns to have been written. -/
def acknowledgedIds : Except PyError (List IngestOutcome) → List Text
  | .ok outcomes => importedIds outcomes
  | .error _ => []

/-- The file when the process ends after `k` bytes of what a call writes. -/
def interruptedAfter (before after : Content) (k : Nat) : Content :=
  after.map fun bytes => bytes.take ((before.getD []).length + k)

/-- What happens to the journal file. -/
inductive JournalStep
  | call (call : JournalCall)
  | interrupted (call : JournalCall) (k : Nat)
  /-- The verified prefix is exported, and the export is the journal from now on. -/
  | recovered (sameResolvedPath : Str → Str → Bool) (journalPath outputPath : Str)
      (output : Content)

section Run

variable (P : Platform)

/-- The journal a call leaves, and the ids of the events it returns as written. -/
def JournalCall.run (content : Content) : JournalCall → Content × List Text
  | append event =>
    let step := appendEvent P (.default P) content event
    (step.2, (step.1.toOption.map (·.eventId)).toList)
  | importBatch normalizer existingEvents records =>
    let step := importEvidenceBatch P (.default P) normalizer existingEvents content records
    (step.2, acknowledgedIds step.1)
  | importAtomically normalizer records =>
    let step := importEvidenceBatchAtomically P (.default P) normalizer content records
    (step.2, acknowledgedIds step.1)

def JournalStep.run (content : Content) : JournalStep → Content × List Text
  | .call c => c.run P content
  | .interrupted c k => (interruptedAfter content (c.run P content).1 k, [])
  | .recovered same journalPath outputPath output =>
    match exportVerifiedPrefix P same journalPath outputPath content output none .null with
    | (.ok _, written) => (written, [])
    | (.error _, _) => (content, [])

end Run

/-- The file is the lines of the committed events and, when it is damaged, the beginning of one
more. -/
def HoldsLog (P : Platform) (content : Content) (log : Log EventEnvelope) : Prop :=
  ∃ whole torn, content.getD [] = whole ++ torn ∧ newline ∉ torn ∧
    Verified P (some whole) log.committed ∧ (log.damaged = true ↔ torn ≠ [])

/-- The only issue is a record without its end, behind the verified ones. -/
def TruncatedAfter (s : VerifiedJournalSnapshot) : Prop :=
  ∃ issue, s.verification.issues = [issue] ∧ issue.code = .truncatedRecord ∧
    issue.recordNumber = s.events.length + 1

variable {P : Platform} {content before after : Content} {es : List EventEnvelope}
  {log : Log EventEnvelope}

/-! ## A damaged file -/

theorem HoldsLog.verified (h : HoldsLog P content log) (hdamaged : log.damaged = false) :
    Verified P content log.committed := by
  obtain ⟨whole, torn, hbytes, -, hwhole, hiff⟩ := h
  have htorn : torn = [] := by
    rw [hdamaged] at hiff
    simpa using hiff
  rw [htorn, List.append_nil] at hbytes
  rw [Verified, hbytes]
  exact hwhole

theorem splitLines_torn {whole torn : Bytes} (hwhole : Verified P (some whole) es) :
    splitLines (whole ++ torn) = splitLines whole ++ splitLines torn := by
  obtain ⟨bodies, hbytes, hbodies⟩ := hwhole.bytes
  rw [Option.getD_some] at hbytes
  have hall := splitLines_joinLines_append bodies [] hbodies
  rw [List.append_nil] at hall
  rw [hbytes, splitLines_joinLines_append bodies torn hbodies, hall]
  simp [splitLines]

/-- The verifier accepts the committed events and stops at the record without its end. -/
theorem HoldsLog.snapshot (h : HoldsLog P content log) :
    ∃ s, verifiedJournalSnapshot P content none .null = .ok s ∧ s.events = log.committed ∧
      s.ok = !log.damaged ∧ (log.damaged = true → TruncatedAfter s) := by
  cases hdamaged : log.damaged with
  | false => exact ⟨_, snapshot_of_verified (h.verified hdamaged), rfl, rfl, fun h => by cases h⟩
  | true =>
    obtain ⟨whole, torn, hbytes, htorn, hwhole, hiff⟩ := h
    have hne : torn ≠ [] := hiff.mp hdamaged
    have hlines : splitLines (content.getD []) = splitLines whole ++ [torn] := by
      rw [hbytes, splitLines_torn hwhole, splitLines_of_notMem htorn, if_neg hne]
    have hrecords : ValidRecords P 0 none (splitLines whole) log.committed := hwhole
    have hscan := hrecords.scanRecords_append [torn] (s := .start) rfl
    rw [← hlines, Nat.zero_add] at hscan
    -- the last line does not end in a newline
    obtain ⟨issue, hcheck, hcode, hnumber⟩ : ∃ issue, (∀ prev, checkRecord P log.committed.length
        prev torn = .ok (.inl issue)) ∧ issue.code = .truncatedRecord ∧
        issue.recordNumber = log.committed.length + 1 := by
      refine ⟨{ recordNumber := log.committed.length + 1, code := .truncatedRecord
                message := "journal record is missing its newline terminator" },
        fun prev => ?_, rfl, rfl⟩
      unfold checkRecord
      rw [if_pos fun hlast => htorn (List.mem_of_getLast? hlast)]
    rw [scanRecords, hcheck] at hscan
    have hs : verifiedJournalSnapshot P content none .null = .ok _ :=
      bind_eq_ok.mpr ⟨_, hscan, bind_eq_ok.mpr ⟨[], rfl, rfl⟩⟩
    have hevents : (ScanState.start.acceptAll log.committed).events = log.committed :=
      ScanState.acceptAll_events _ _
    have hnone : (ScanState.start.acceptAll log.committed).issues = [] :=
      ScanState.acceptAll_issues _ _
    refine ⟨_, hs, hevents, ?_, fun _ => ⟨issue, ?_, hcode, ?_⟩⟩
    · simp [VerifiedJournalSnapshot.ok, hnone]
    · simp only [hnone, countIssues_none, List.nil_append, List.append_nil]
    · rw [hevents]
      exact hnumber

theorem HoldsLog.refused (h : HoldsLog P content log) (hdamaged : log.damaged = true) :
    ∃ s, verifiedJournalSnapshot P content none .null = .ok s ∧ s.ok = false := by
  obtain ⟨s, hs, -, hok, -⟩ := h.snapshot
  exact ⟨s, hs, by rw [hok, hdamaged, Bool.not_true]⟩

/-! ## What a call commits -/

/-- The call adds events to a journal that verifies, among them those it acknowledges, and leaves
one that does not verify alone. -/
structure Commits (P : Platform) (before after : Content) (names : List Text) : Prop where
  verified : ∀ es, Verified P before es → ∃ new, Verified P after (es ++ new) ∧
    names.Sublist (new.map (·.eventId))
  refused : ∀ s, verifiedJournalSnapshot P before none .null = .ok s → s.ok = false →
    after = before ∧ names = []

theorem commits_rfl (content : Content) : Commits P content content [] where
  verified es hv := ⟨[], by rwa [List.append_nil], List.Sublist.refl _⟩
  refused _ _ _ := ⟨rfl, rfl⟩

theorem Commits.trans {middle : Content} {names names' : List Text}
    (h : Commits P before middle names) (h' : Commits P middle after names') :
    Commits P before after (names ++ names') where
  verified es hv := by
    obtain ⟨new, hmiddle, hnames⟩ := h.verified es hv
    obtain ⟨new', hafter, hnames'⟩ := h'.verified _ hmiddle
    refine ⟨new ++ new', by rwa [← List.append_assoc], ?_⟩
    rw [List.map_append]
    exact hnames.append hnames'
  refused s hs hok := by
    obtain ⟨rfl, rfl⟩ := h.refused s hs hok
    exact h'.refused s hs hok

theorem importedIds_append (outcomes tail : List IngestOutcome) :
    importedIds (outcomes ++ tail) = importedIds outcomes ++ importedIds tail :=
  List.filterMap_append

theorem importedIds_skipped {outcome : IngestOutcome} (h : outcome.status ≠ .imported) :
    importedIds [outcome] = [] := by
  simp [importedIds, h]

theorem importedIds_imported (record : EvidenceRecord) (persisted : EventEnvelope) :
    importedIds [importedOutcome record persisted] = [persisted.eventId] := rfl

section Batch

variable {s : BatchState} {record : EvidenceRecord} {seenEntries : IdempotencyEntries}

/-- The second state has appended to the journal of the first what its outcomes report. -/
def Advances (P : Platform) (s s' : BatchState) : Prop :=
  ∃ added, importedIds s'.outcomes = importedIds s.outcomes ++ added ∧
    Commits P s.content s'.content added

theorem Advances.trans {s' s'' : BatchState} (h : Advances P s s') (h' : Advances P s' s'') :
    Advances P s s'' := by
  obtain ⟨added, houtcomes, hcommits⟩ := h
  obtain ⟨added', houtcomes', hcommits'⟩ := h'
  refine ⟨added ++ added', ?_, hcommits.trans hcommits'⟩
  rw [houtcomes', houtcomes, List.append_assoc]

/-- A turn that imports nothing. -/
theorem Advances.skip {s' : BatchState} {outcome : IngestOutcome}
    (hstatus : outcome.status ≠ .imported) (hcontent : s'.content = s.content)
    (houtcomes : s'.outcomes = s.outcomes ++ [outcome]) : Advances P s s' := by
  refine ⟨[], ?_, ?_⟩
  · rw [houtcomes, importedIds_append, importedIds_skipped hstatus]
  · rw [hcontent]
    exact commits_rfl _

end Batch

theorem Reached.importedIds {policy : RedactionPolicy} {seenEntries : IdempotencyEntries}
    {start s : ImportState} {done : List EvidenceRecord}
    {new : List (EvidenceRecord × EventEnvelope)}
    (h : Reached P policy seenEntries start done s new) (hstart : start.outcomes = []) :
    ActionLineage.importedIds s.outcomes = (new.map Prod.snd).map (·.eventId) := by
  induction h with
  | start => rw [hstart]; rfl
  | matched _ _ _ ih =>
    rw [ImportState.report, importedIds_append, ih,
      importedIds_skipped (matchedIdempotencyOutcome_status _ _ _), List.append_nil]
  | imported _ _ _ _ ih =>
    rw [ImportState.commit, importedIds_append, ih, importedIds_imported, List.map_append,
      List.map_append]
    rfl
  | failed _ _ _ _ _ _ ih =>
    rw [ImportState.report, importedIds_append, ih, importedIds_skipped (failedOutcome_status _ _),
      List.append_nil]

theorem Reached.mem_done {policy : RedactionPolicy} {seenEntries : IdempotencyEntries}
    {start s : ImportState} {done : List EvidenceRecord}
    {new : List (EvidenceRecord × EventEnvelope)}
    (h : Reached P policy seenEntries start done s new) : ∀ p ∈ new, p.1 ∈ done := by
  induction h with
  | start => simp
  | matched _ _ _ ih => exact fun p hp => List.mem_append_left _ (ih p hp)
  | imported _ _ _ _ ih =>
    intro p hp
    rcases List.mem_append.mp hp with hp | hp
    · exact List.mem_append_left _ (ih p hp)
    · rw [List.mem_singleton.mp hp]
      exact List.mem_append_right _ (List.mem_singleton_self _)
  | failed _ _ _ _ _ _ ih => exact fun p hp => List.mem_append_left _ (ih p hp)

/-- The outcomes name events of the journal only, and every imported one names its event. -/
structure NamesEvents (es : List EventEnvelope) (outcomes : List IngestOutcome) : Prop where
  named : ∀ o ∈ outcomes, ∀ id, o.eventId = some id → id ∈ es.map (·.eventId)
  imported : ∀ o ∈ outcomes, o.status = .imported → o.eventId.isSome = true

theorem namesEvents_append {outcomes more : List IngestOutcome} (h : NamesEvents es outcomes)
    (h' : NamesEvents es more) : NamesEvents es (outcomes ++ more) where
  named o ho := (List.mem_append.mp ho).elim (h.named o) (h'.named o)
  imported o ho := (List.mem_append.mp ho).elim (h.imported o) (h'.imported o)

theorem NamesEvents.mono {es' : List EventEnvelope} {outcomes : List IngestOutcome}
    (h : NamesEvents es outcomes) (hsub : es ⊆ es') : NamesEvents es' outcomes where
  named o ho id hid := List.map_subset _ hsub (h.named o ho id hid)
  imported := h.imported

theorem namesEvents_failed (record : EvidenceRecord) (exc : PyError) :
    NamesEvents es [failedOutcome record exc] where
  named o ho id hid := by
    rw [List.mem_singleton.mp ho] at hid
    cases hid
  imported o ho himported := by
    rw [List.mem_singleton.mp ho] at himported
    cases himported

theorem namesEvents_imported (record : EvidenceRecord) {persisted : EventEnvelope}
    (hmem : persisted ∈ es) : NamesEvents es [importedOutcome record persisted] where
  named o ho id hid := by
    rw [List.mem_singleton.mp ho] at hid
    rw [← Option.some.inj hid]
    exact List.mem_map_of_mem hmem
  imported o ho _ := by
    rw [List.mem_singleton.mp ho]
    rfl

theorem namesEvents_matched (record : EvidenceRecord) {entry : IdempotencyEntry}
    (recordFingerprint : Str) (hmem : entry.eventId ∈ es.map (·.eventId)) :
    NamesEvents es [matchedIdempotencyOutcome record entry recordFingerprint] where
  named o ho id hid := by
    have hentry : (matchedIdempotencyOutcome record entry recordFingerprint).eventId
        = some entry.eventId := by
      unfold matchedIdempotencyOutcome
      split <;> rfl
    rw [List.mem_singleton.mp ho, hentry] at hid
    rwa [← Option.some.inj hid]
  imported o ho himported := by
    rw [List.mem_singleton.mp ho] at himported
    exact absurd himported (matchedIdempotencyOutcome_status _ _ _)

/-- The entries of a journal are of its events. -/
theorem existingIdempotencyEntries_named (es : List EventEnvelope) :
    ∀ p ∈ existingIdempotencyEntries es, p.2.eventId ∈ es.map (·.eventId) := by
  induction es using List.reverseRecOn with
  | nil => exact fun p hp => by cases hp
  | append_singleton es e ih =>
    intro p hp
    rw [List.map_append]
    unfold existingIdempotencyEntries at hp
    rw [List.foldl_append] at hp
    simp only [List.foldl_cons, List.foldl_nil] at hp
    split at hp
    · rcases List.mem_cons.mp hp with rfl | hp
      · exact List.mem_append_right _ (List.mem_singleton_self _)
      · exact List.mem_append_left _ (ih p hp)
    · exact List.mem_append_left _ (ih p hp)

theorem eventId_of_lookup {entries : IdempotencyEntries} {key : Str} {entry : IdempotencyEntry}
    (h : entries.lookup key = some entry)
    (hall : ∀ p ∈ entries, p.2.eventId ∈ es.map (·.eventId)) :
    entry.eventId ∈ es.map (·.eventId) := by
  obtain ⟨before, after, rfl, -⟩ := List.lookup_eq_some_iff.mp h
  exact hall (key, entry) (by simp)

/-- A key is matched with an event of the journal or an earlier one of the batch. -/
theorem Reached.namesEvents {policy : RedactionPolicy} {start s : ImportState}
    {done : List EvidenceRecord} {new : List (EvidenceRecord × EventEnvelope)}
    (h : Reached P policy (existingIdempotencyEntries es) start done s new)
    (houtcomes : start.outcomes = []) (hseen : start.batchSeen = []) :
    NamesEvents (es ++ new.map Prod.snd) s.outcomes ∧
      ∀ p ∈ s.batchSeen, p.2.eventId ∈ (es ++ new.map Prod.snd).map (·.eventId) := by
  induction h with
  | start =>
    rw [houtcomes, hseen]
    exact ⟨⟨by simp, by simp⟩, by simp⟩
  | @matched _ s new record fingerprint entry _ _ hentry ih =>
    obtain ⟨hnames, hbatch⟩ := ih
    refine ⟨namesEvents_append hnames (namesEvents_matched record fingerprint ?_), hbatch⟩
    rcases Option.or_eq_some_iff.mp hentry with hlookup | ⟨-, hlookup⟩
    · have hmem := eventId_of_lookup hlookup (existingIdempotencyEntries_named es)
      rw [List.map_append]
      exact List.mem_append_left _ hmem
    · exact eventId_of_lookup hlookup hbatch
  | @imported _ s new record _ persisted _ _ _ _ _ _ ih =>
    obtain ⟨hnames, hbatch⟩ := ih
    have hsub : es ++ new.map Prod.snd ⊆ es ++ (new ++ [(record, persisted)]).map Prod.snd := by
      intro e he
      rw [List.map_append, ← List.append_assoc]
      exact List.mem_append_left _ he
    have hmem : persisted ∈ es ++ (new ++ [(record, persisted)]).map Prod.snd := by simp
    refine ⟨namesEvents_append (hnames.mono hsub) (namesEvents_imported record hmem), ?_⟩
    intro p hp
    rcases List.mem_cons.mp hp with rfl | hp
    · exact List.mem_map_of_mem hmem
    · exact List.map_subset _ hsub (hbatch p hp)
  | @failed _ _ _ record _ exc _ _ _ _ _ _ _ ih =>
    exact ⟨namesEvents_append ih.1 (namesEvents_failed record exc), ih.2⟩

/-- A record that ends the loop is not reported as imported. -/
theorem Ends.outcomes {policy : RedactionPolicy} {seenEntries : IdempotencyEntries}
    {s : ImportState} {record : EvidenceRecord} {step : ImportStep}
    (h : Ends P policy seenEntries s record step) {outcomes : List IngestOutcome}
    (houtcomes : step.result.1 = .ok outcomes) :
    ∃ exc, outcomes = s.outcomes ++ [failedOutcome record exc] := by
  cases h with
  | unwritable => cases houtcomes
  | @broken _ exc => exact ⟨exc, (Except.ok.inj houtcomes).symm⟩
  | refused => cases houtcomes
  | escaped => cases houtcomes

/-- However the import ends, its loop has reached a state. -/
theorem import_reached (hv : Verified P before es) {normalizer rebased : EvidenceNormalizer}
    (hrebase : normalizer.rebaseInitialSequence es.length = .ok rebased)
    (records : List EvidenceRecord) :
    let step := importEvidenceBatchAtomically P (.default P) normalizer before records
    ∃ done s new, Reached P (.default P) (existingIdempotencyEntries es)
        (importStart rebased before es) done s new ∧ (∀ record ∈ done, record ∈ records) ∧
      step.2 = s.content ∧
      ∀ outcomes, step.1 = .ok outcomes → outcomes = s.outcomes ∨
        ∃ record exc, outcomes = s.outcomes ++ [failedOutcome record exc] := by
  intro step
  have hstep : step = (importRecords P (.default P) (existingIdempotencyEntries es)
      (importStart rebased before es) (orderedRecords records)).result := by
    show importEvidenceBatchAtomically P (.default P) normalizer before records = _
    rw [import_of_verified hv, hrebase]
  have hmem : ∀ record ∈ orderedRecords records, record ∈ records :=
    fun record => (List.perm_insertionSort _ records).mem_iff.mp
  rcases importRecords_reached P (.default P) (existingIdempotencyEntries es)
    (importStart rebased before es) (orderedRecords records) with
    ⟨s, new, hrun, hs⟩ | ⟨start, record, rest, s, new, hsplit, hs, hends⟩
  · rw [hrun] at hstep
    refine ⟨_, s, new, hs, hmem, by rw [hstep]; rfl, fun outcomes houtcomes => ?_⟩
    rw [hstep] at houtcomes
    exact .inl (Except.ok.inj houtcomes).symm
  · rw [hsplit] at hmem
    refine ⟨start, s, new, hs, fun r hr => hmem r (List.mem_append_left _ hr), ?_, ?_⟩
    · rw [hstep]
      exact hends.content
    · intro outcomes houtcomes
      rw [hstep] at houtcomes
      exact .inr ⟨record, hends.outcomes houtcomes⟩

/-- What an import does to a verified journal: it appends events, each imported from one of the
records, and an import that returns reports exactly them as imported. -/
theorem import_spec (hv : Verified P before es) (normalizer : EvidenceNormalizer)
    (records : List EvidenceRecord) :
    let step := importEvidenceBatchAtomically P (.default P) normalizer before records
    ∃ new : List (EvidenceRecord × EventEnvelope),
      Verified P step.2 (es ++ new.map Prod.snd) ∧
      (∀ p ∈ new, p.1 ∈ records ∧ ImportedFrom P (.default P) normalizer p.1 p.2) ∧
      (new = [] → step.2 = before) ∧
      ∀ outcomes, step.1 = .ok outcomes →
        importedIds outcomes = (new.map Prod.snd).map (·.eventId) ∧
          NamesEvents (es ++ new.map Prod.snd) outcomes := by
  intro step
  cases hrebase : normalizer.rebaseInitialSequence es.length with
  | error exc =>
    have hstep : step = (.error exc, before) := by
      show importEvidenceBatchAtomically P (.default P) normalizer before records = _
      rw [import_of_verified hv, hrebase]
    rw [hstep]
    exact ⟨[], by simpa using hv, by simp, fun _ => rfl, fun _ h => by cases h⟩
  | ok rebased =>
    obtain ⟨done, s, new, hs, hdone, hcontent, houtcomes⟩ := import_reached hv hrebase records
    have hsame := sameConfiguration_rebase hrebase
    refine ⟨new, ?_, fun p hp => ⟨hdone _ (hs.mem_done p hp), ?_⟩, fun hnil => ?_, fun outcomes h => ?_⟩
    · rw [show step.2 = s.content from hcontent]
      exact (hs.verified hv rfl rfl).1
    · obtain ⟨n, fingerprint, event, prev, line, hn, hfingerprint, hrest⟩ := hs.importedFrom p hp
      refine ⟨n, fingerprint, event, prev, line, hsame.trans hn, ?_, hrest⟩
      rwa [← hsame.fingerprint]
    · obtain ⟨-, -, -, hkept⟩ := hs.content_eq
      exact hcontent.trans (hkept hnil)
    · have hids := hs.importedIds rfl
      have hnames := (hs.namesEvents rfl rfl).1
      rcases houtcomes outcomes h with rfl | ⟨record, exc, rfl⟩
      · exact ⟨hids, hnames⟩
      · refine ⟨?_, namesEvents_append hnames (namesEvents_failed record exc)⟩
        rw [importedIds_append, importedIds_skipped (failedOutcome_status record exc),
          List.append_nil, hids]

theorem ValidRecords.take {index : Nat} {prev : Option Text} {lines : List Bytes}
    (h : ValidRecords P index prev lines es) (n : Nat) :
    ValidRecords P index prev (lines.take n) (es.take n) := by
  induction h generalizing n with
  | nil =>
    rw [List.take_nil, List.take_nil]
    exact .nil
  | cons head _ ih =>
    cases n with
    | zero => exact .nil
    | succ n => exact .cons head (ih n)

/-- The export of the verified prefix is the journal of the committed events. -/
theorem HoldsLog.export (h : HoldsLog P content log) {same : Str → Str → Bool}
    {journalPath outputPath : Str} (hpaths : same journalPath outputPath = false)
    (output : Content) :
    ∃ result out, exportVerifiedPrefix P same journalPath outputPath content output none .null
        = (.ok result, some out) ∧ Verified P (some out) log.committed := by
  obtain ⟨s, hs, -⟩ := h.snapshot
  obtain ⟨result, out, hexport, -, -, -, hlongest, -⟩ :=
    export_of_snapshot hpaths output (bind_eq_ok.mpr ⟨s, hs, rfl⟩)
  obtain ⟨whole, torn, hbytes, htorn, hwhole, -⟩ := h
  have hsource : splitLines (content.getD []) = splitLines whole ++ splitLines torn := by
    rw [hbytes, splitLines_torn hwhole]
  have hout := hlongest.eq_of_unterminated hsource htorn hwhole
  rw [splitLines_flatten] at hout
  exact ⟨result, out, hexport, hout ▸ hwhole⟩

end ActionLineage
