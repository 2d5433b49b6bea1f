import ActionLineage.Service.Interleavings

/-!
# Answers in any order of uses

What a worker answers was read at different times, while other workers went on. A timeline is still
the journal's at the moment of the answer (`timeline_answers_current`), an ingest answer names events
that are there (`ingest_answers_hold`), and a health check finds fault with nothing that the workers
do to each other, but for a projection that is behind (`health_answers_bounded`).
-/

namespace ActionLineage.Service

open Py

variable {P : Platform} {R : PathResolver} {app : ServiceApp} {acceptsPayload : Obj → Bool}
  {content : Content} {es : List EventEnvelope}

/-- What a step has done when it answers. -/
inductive Answers (P : Platform) (R : PathResolver) (acceptsPayload : Obj → Bool)
    (app : ServiceApp) (s : ServiceState) :
    ServiceStep → ServiceResponse → ServiceState → Prop
  | refused {step status failure s'} :
      Answers P R acceptsPayload app s step (.refused status failure) s'
  | listed {authorization listing} :
      Answers P R acceptsPayload app s (.listEvents authorization) (.events listing) s
  /-- Nothing of the batch is in the journal. -/
  | nothing {i request host principal result content}
      (hprincipal : app.principal request.authorization = .ok principal)
      (hrun : ingestRecords P acceptsPayload app principal request host s.content
        = (.ok result, content))
      (himported : result.importedCount = 0) (hduplicate : result.duplicateCount = 0) :
      Answers P R acceptsPayload app s (.beginIngest i request host) (ingestDone result)
        { s with content }
  | unread {i result exc} (hworker : s.workers i = .imported result) :
      Answers P R acceptsPayload app s (.readJournal i)
        (.ingested 503 (ingestResponseBody result (.stale exc))) (s.setWorker i .idle)
  | rebuilt {i prepared fault result journalPath snapshot n database}
      (hworker : s.workers i = .rebuilding result journalPath snapshot)
      (hrun : rebuildDatabase P prepared fault journalPath snapshot s.database = (.ok n, database)) :
      Answers P R acceptsPayload app s (.writeDatabase i prepared fault) (ingestDone result)
        ({ s with database }.setWorker i .idle)
  | stale {i prepared fault result journalPath snapshot exc database}
      (hworker : s.workers i = .rebuilding result journalPath snapshot)
      (hrun : rebuildDatabase P prepared fault journalPath snapshot s.database
        = (.error exc, database)) :
      Answers P R acceptsPayload app s (.writeDatabase i prepared fault)
        (.ingested 503 (ingestResponseBody result (.stale exc)))
        ({ s with database }.setWorker i .idle)
  | timeline {i verification shown} (hworker : s.workers i = .reading verification (some shown))
      (hrecheck : recheckTerminalJournalState P s.content verification = .ok ()) :
      Answers P R acceptsPayload app s (.endRead i) (.timeline shown) (s.setWorker i .idle)
  | healthy {i verification} (hworker : s.workers i = .reading verification none)
      (hrecheck : recheckTerminalJournalState P s.content verification = .ok ()) :
      Answers P R acceptsPayload app s (.endRead i) (.health []) (s.setWorker i .idle)
  | journalInvalid {i issues} (hinvalid : ∀ verification,
        verifyJournal P s.content none .null = .ok verification → verification.ok = false) :
      Answers P R acceptsPayload app s (.beginHealth i) (.health issues) s
  | missing {i} :
      Answers P R acceptsPayload app s (.openDatabase i) (.health [.state .projectionMissing])
        (s.setWorker i .idle)
  | unverified {i db code message} (hworker : s.workers i = .connected none db)
      (hread : (verifyProjectionStateOnConnection P R db s.content).mapError projectionStateFailure
        = .error (.projectionStateError code message)) :
      Answers P R acceptsPayload app s (.readRows i) (.health [.state code]) (s.setWorker i .idle)
  | changed {i verification code message} (hworker : s.workers i = .reading verification none)
      (hrecheck : recheckTerminalJournalState P s.content verification
        = .error (.projectionStateError code message)) :
      Answers P R acceptsPayload app s (.endRead i) (.health [.state code]) (s.setWorker i .idle)

section Answers

variable {s : ServiceState} {r : ServiceResponse}

theorem beginIngest_answers {i : ℕ} {request : IngestRequest} {host : Surroundings}
    (h : (beginIngest P acceptsPayload app s i request host).1 = some r) :
    Answers P R acceptsPayload app s (.beginIngest i request host) r
      (beginIngest P acceptsPayload app s i request host).2 := by
  unfold beginIngest at h ⊢
  split at h
  · rw [← Option.some.inj h]
    exact .refused
  rename_i principal hprincipal
  rcases hrun : ingestRecords P acceptsPayload app principal request host s.content
    with ⟨result, content⟩
  rw [hrun] at h
  cases result with
  | error failure =>
    rw [← Option.some.inj h]
    exact .refused
  | ok result =>
    dsimp only at h ⊢
    split at h
    · cases h
    · rename_i hcounts
      rw [if_neg hcounts, ← Option.some.inj h]
      obtain ⟨himported, hduplicate⟩ := not_or.mp hcounts
      exact .nothing hprincipal hrun (not_not.mp himported) (not_not.mp hduplicate)

/-- A rebuild that raised is answered for in the one way or the other. -/
theorem rebuildFailed_cases (result : BatchImportResult) (exc : PyError) :
    (∃ status failure, rebuildFailed result exc = .refused status failure) ∨
      rebuildFailed result exc = .ingested 503 (ingestResponseBody result (.stale exc)) := by
  unfold rebuildFailed
  split
  · exact .inr rfl
  · exact .inl ⟨_, _, rfl⟩

theorem readJournal_answers {i : ℕ} (h : (readJournal P R app s i).1 = some r) :
    Answers P R acceptsPayload app s (.readJournal i) r (readJournal P R app s i).2 := by
  unfold readJournal at h ⊢
  split at h
  · rename_i result hworker
    split at h
    · cases h
    · rename_i exc hsource
      rw [← Option.some.inj h]
      rcases rebuildFailed_cases result exc with ⟨status, failure, hfailed⟩ | hfailed
      · rw [hfailed]
        exact .refused
      · rw [hfailed]
        exact .unread hworker
  · cases h

theorem writeDatabase_answers {i : ℕ} {prepared : Except PyError Unit} {fault : ℕ → Option PyError}
    (h : (writeDatabase P s i prepared fault).1 = some r) :
    Answers P R acceptsPayload app s (.writeDatabase i prepared fault) r
      (writeDatabase P s i prepared fault).2 := by
  unfold writeDatabase at h ⊢
  split at h
  · rename_i result journalPath snapshot hworker
    split at h
    · rename_i n database hrun
      rw [← Option.some.inj h]
      exact .rebuilt hworker hrun
    · rename_i exc database hrun
      rw [← Option.some.inj h]
      rcases rebuildFailed_cases result exc with ⟨status, failure, hfailed⟩ | hfailed
      · rw [hfailed]
        exact .refused
      · rw [hfailed]
        exact .stale hworker hrun
  · cases h

theorem beginTimeline_answers {i : ℕ} {authorization traceId runId : Option Str} {s' : ServiceState}
    (h : (beginTimeline app s i authorization traceId runId).1 = some r) :
    Answers P R acceptsPayload app s (.beginTimeline i authorization traceId runId) r s' := by
  unfold beginTimeline at h
  split at h
  · rw [← Option.some.inj h]
    exact .refused
  · split at h
    · rw [← Option.some.inj h]
      exact .refused
    · split at h
      · rw [← Option.some.inj h]
        exact .refused
      · cases h

theorem beginHealth_answers {i : ℕ} (h : (beginHealth P s i).1 = some r) :
    Answers P R acceptsPayload app s (.beginHealth i) r (beginHealth P s i).2 := by
  unfold beginHealth at h ⊢
  split at h
  · rename_i exc hverify
    rw [← Option.some.inj h]
    split
    · exact .journalInvalid fun verification hok => by
        rw [hverify] at hok
        cases hok
    · exact .refused
  · rename_i verification hverify
    split at h
    · cases h
    · rename_i hinvalid
      rw [if_neg hinvalid, ← Option.some.inj h]
      refine .journalInvalid fun verification' hok => ?_
      rw [hverify] at hok
      rw [← Except.ok.inj hok]
      exact Bool.eq_false_iff.mpr hinvalid

/-- How a read that raised is answered for. -/
theorem readRefused_cases (query : Bool) (exc : PyError) :
    (∃ status failure, readRefused query exc = .refused status failure) ∨
      query = false ∧ ∃ code message, exc = .projectionStateError code message ∧
        readRefused query exc = .health [.state code] := by
  cases query with
  | true => exact .inl ⟨_, _, rfl⟩
  | false =>
    cases exc with
    | projectionStateError code message => exact .inr ⟨rfl, code, message, rfl, rfl⟩
    | _ => exact .inl ⟨_, _, rfl⟩

theorem openDatabase_answers {i : ℕ} (h : (openDatabase s i).1 = some r) :
    Answers P R acceptsPayload app s (.openDatabase i) r (openDatabase s i).2 := by
  unfold openDatabase at h ⊢
  split at h
  · rename_i selector hworker
    split at h
    · cases h
    · rename_i exc hopen
      rw [← Option.some.inj h]
      rcases readRefused_cases selector.isSome exc with ⟨status, failure, hfailed⟩ |
        ⟨-, code, message, rfl, hfailed⟩
      · rw [hfailed]
        exact .refused
      · rw [hfailed]
        unfold openProjection at hopen
        split at hopen
        · cases hopen
        · cases hopen
          exact .missing
  · cases h

theorem readRows_answers {i : ℕ} (h : (readRows P R s i).1 = some r) :
    Answers P R acceptsPayload app s (.readRows i) r (readRows P R s i).2 := by
  unfold readRows at h ⊢
  split at h
  · rename_i selector db hworker
    split at h
    · cases h
    · rename_i exc hread
      rw [← Option.some.inj h]
      rcases readRefused_cases selector.isSome exc with ⟨status, failure, hfailed⟩ |
        ⟨hquery, code, message, rfl, hfailed⟩
      · rw [hfailed]
        exact .refused
      · rw [hfailed]
        obtain rfl := Option.not_isSome_iff_eq_none.mp (Bool.eq_false_iff.mp hquery)
        have hverify : (verifyProjectionStateOnConnection P R db s.content).mapError
            projectionStateFailure = .error (.projectionStateError code message) := by
          unfold readProjection at hread
          dsimp only at hread
          cases hrun : (verifyProjectionStateOnConnection P R db s.content).mapError
            projectionStateFailure with
          | error exc' =>
            rw [hrun] at hread
            rw [← Except.error.inj hread]
          | ok verification =>
            rw [hrun] at hread
            cases hread
        exact .unverified hworker hverify
  · cases h

theorem endRead_answers {i : ℕ} (h : (endRead P s i).1 = some r) :
    Answers P R acceptsPayload app s (.endRead i) r (endRead P s i).2 := by
  unfold endRead at h ⊢
  split at h
  · rename_i verification events hworker
    split at h
    · rename_i hrecheck
      rw [← Option.some.inj h]
      cases events with
      | none => exact .healthy hworker hrecheck
      | some shown => exact .timeline hworker hrecheck
    · rename_i exc hrecheck
      rw [← Option.some.inj h]
      rcases readRefused_cases events.isSome exc with ⟨status, failure, hfailed⟩ |
        ⟨hquery, code, message, rfl, hfailed⟩
      · rw [hfailed]
        exact .refused
      · rw [hfailed]
        obtain rfl := Option.not_isSome_iff_eq_none.mp (Bool.eq_false_iff.mp hquery)
        exact .changed hworker hrecheck
  · cases h

theorem listEvents_answers {authorization : Option Str} :
    Answers P R acceptsPayload app s (.listEvents authorization) (listEvents P app s authorization)
      s := by
  unfold listEvents
  split
  · exact .refused
  · split
    · exact .refused
    · split
      · exact .refused
      · split
        · exact .listed
        · exact .refused

theorem step_answers {step : ServiceStep} (h : (step.run P R acceptsPayload app s).1 = some r) :
    Answers P R acceptsPayload app s step r (step.run P R acceptsPayload app s).2 := by
  cases step with
  | beginIngest i request host =>
    unfold ServiceStep.run at h ⊢
    dsimp only at h ⊢
    split at h
    · exact beginIngest_answers h
    · cases h
  | readJournal i => exact readJournal_answers h
  | writeDatabase i prepared fault => exact writeDatabase_answers h
  | beginTimeline i authorization traceId runId =>
    unfold ServiceStep.run at h
    dsimp only at h
    split at h
    · exact beginTimeline_answers h
    · cases h
  | beginHealth i =>
    unfold ServiceStep.run at h ⊢
    dsimp only at h ⊢
    split at h
    · exact beginHealth_answers h
    · cases h
  | openDatabase i => exact openDatabase_answers h
  | readRows i => exact readRows_answers h
  | endRead i => exact endRead_answers h
  | listEvents authorization =>
    rw [← Option.some.inj h]
    exact listEvents_answers

end Answers

/-! ## Timelines -/

/-- What an ingest answer says of a journal with the events `es`. -/
structure IngestHolds (P : Platform) (app : ServiceApp) (steps : List ServiceStep) (i : ℕ)
    (es : List EventEnvelope) (body : IngestResponseBody) (before after : Option ProjectionDatabase) :
    Prop where
  imported : ImportedBy P app steps i es ⟨body.outcomes⟩
  committed : body.journalCommitted = true ↔ importedIds body.outcomes ≠ []
  /-- The rebuilt database is that of a journal with all that the answer names. -/
  rebuilt : body.projection = .rebuilt → body.importedCount ≠ 0 ∨ body.duplicateCount ≠ 0 →
    ∃ db es₀, after = some db ∧ HoldsRows P db es₀ ∧ es₀ <+: es ∧
      ImportedBy P app steps i es₀ ⟨body.outcomes⟩
  stale : ∀ exc, body.projection = .stale exc →
    SchemaTouched (before.getD .empty) (after.getD .empty)

theorem committed_iff {result : BatchImportResult} (h : NamesEvents es result.outcomes)
    (projection : ProjectionReport) :
    (ingestResponseBody result projection).journalCommitted = true ↔
      importedIds result.outcomes ≠ [] := by
  show decide (0 < result.importedCount) = true ↔ _
  rw [decide_eq_true_iff, importedCount_eq h, List.length_pos_iff]

theorem Answers.ingestHolds {seen : ProjectionDatabase → Prop} {s s' : ServiceState}
    {steps : List ServiceStep} {step : ServiceStep} {status : ℕ} {body : IngestResponseBody}
    (h : Answers P R acceptsPayload app s step (.ingested status body) s')
    (hs : Consistent P R app seen steps s es) :
    ∃ i es', Verified P s'.content es' ∧
      IngestHolds P app (steps ++ [step]) i es' body s.database s'.database := by
  have hsteps : steps ⊆ steps ++ [step] := List.subset_append_left _ _
  -- the other answers are of another kind
  generalize hr : ServiceResponse.ingested status body = r at h
  cases h with
  | refused => cases hr
  | listed => cases hr
  | timeline => cases hr
  | healthy => cases hr
  | journalInvalid => cases hr
  | missing => cases hr
  | unverified => cases hr
  | changed => cases hr
  | @nothing i request host principal result content hprincipal hrun himported hduplicate =>
    obtain ⟨-, rfl⟩ := ServiceResponse.ingested.inj hr
    obtain ⟨added, hv, hattributed, -, hids⟩ := ingestRecords_attributed acceptsPayload host
      hprincipal hs.verified
    rw [hrun] at hv hids
    obtain ⟨hids, hnames⟩ := hids result rfl
    -- no rebuild was called for, so the answer promises no database
    refine ⟨i, es ++ added, hv, ⟨⟨request, host, principal, added, by simp,
      (List.suffix_append es added).isInfix, hids, hattributed⟩, hnames⟩, committed_iff hnames _,
      fun _ hcounts => ?_, fun exc hstale => by cases hstale⟩
    exact absurd hcounts (not_or.mpr ⟨not_not.mpr himported, not_not.mpr hduplicate⟩)
  | @unread i result exc hworker =>
    obtain ⟨-, rfl⟩ := ServiceResponse.ingested.inj hr
    have hholds := hs.holds hworker
    exact ⟨i, es, hs.verified, ImportedBy.extend hholds hsteps List.prefix_rfl,
      committed_iff hholds.named _, fun hrebuilt => (by cases hrebuilt), fun _ _ => .inl rfl⟩
  | @rebuilt i prepared fault result journalPath snapshot n database hworker hrun =>
    obtain ⟨-, rfl⟩ := ServiceResponse.ingested.inj hr
    obtain ⟨hpath, content₀, es₀, hearlier, rfl, himported⟩ := hs.holds hworker
    have hreturn := (rebuildDatabase_run hpath hearlier.verified prepared fault s.database).2 n
    rw [hrun] at hreturn
    obtain ⟨db, hdatabase, hprojection⟩ := hreturn rfl
    exact ⟨i, es, hs.verified, himported.extend hsteps hearlier.starts,
      committed_iff himported.named _, fun _ _ => ⟨db, es₀, hdatabase, hprojection.rows,
        hearlier.starts, himported.extend hsteps List.prefix_rfl⟩,
      fun exc hstale => by cases hstale⟩
  | @stale i prepared fault result journalPath snapshot exc database hworker hrun =>
    obtain ⟨-, rfl⟩ := ServiceResponse.ingested.inj hr
    obtain ⟨hpath, content₀, es₀, hearlier, rfl, himported⟩ := hs.holds hworker
    have hraise := (rebuildDatabase_run hpath hearlier.verified prepared fault s.database).1 exc
    rw [hrun] at hraise
    exact ⟨i, es, hs.verified, himported.extend hsteps hearlier.starts,
      committed_iff himported.named _, fun hrebuilt => (by cases hrebuilt), fun _ _ => hraise rfl⟩

/-- A rebuild whose file cannot be prepared. -/
theorem unprepared_answer {s : ServiceState} {i : ℕ} {result : BatchImportResult}
    {journalPath : Str} {exc : PyError} (hv : Verified P s.content es)
    (hpath : R.resolve app.journalPath = .ok journalPath) (hworker : s.workers i = .imported result)
    (hexc : isProjectionError exc = true) (fault : ℕ → Option PyError) :
    (ServiceStep.run P R acceptsPayload app (runService P R acceptsPayload app s [.readJournal i])
      (.writeDatabase i (.error exc) fault)).1
        = some (.ingested 503 (ingestResponseBody result (.stale exc))) := by
  have hsource : rebuildSource P R app.journalPath s.content
      = .ok (journalPath, verifiedSnapshot P s.content es) :=
    bind_eq_ok.mpr ⟨journalPath, hpath, bind_eq_ok.mpr ⟨_, snapshot_of_verified hv, rfl⟩⟩
  have hread : (readJournal P R app s i).2.workers i
      = .rebuilding result journalPath (verifiedSnapshot P s.content es) := by
    unfold readJournal
    rw [hworker]
    dsimp only
    rw [hsource]
    dsimp only
    rw [setWorker_workers, if_pos rfl]
  show (writeDatabase P (readJournal P R app s i).2 i (.error exc) fault).1 = _
  unfold writeDatabase
  rw [hread]
  show some (rebuildFailed result exc) = _
  rw [rebuildFailed, if_pos hexc]

/-- **Ingest answers.** However the workers take turns, what an ingest answer names is in the journal
at the moment of the answer, the imported events one behind the other and put there by a request to
that worker. When it calls the projection rebuilt, the database holds the rows of a journal that has
them all; when it calls it stale, this step has changed no row. -/
theorem ingest_answers_hold (hv : Verified P content es) (database : Option ProjectionDatabase)
    (steps : List ServiceStep) (step : ServiceStep) {status : ℕ} {body : IngestResponseBody}
    (hanswer : (step.run P R acceptsPayload app
      (runService P R acceptsPayload app (.start content database) steps)).1
        = some (.ingested status body)) :
    let s := runService P R acceptsPayload app (.start content database) steps
    let s' := (step.run P R acceptsPayload app s).2
    ∃ i es', Verified P s'.content es' ∧
      IngestHolds P app (steps ++ [step]) i es' body s.database s'.database := by
  intro s s'
  obtain ⟨new, hrun⟩ := run_from_start R acceptsPayload app hv database steps
  exact (step_answers hanswer).ingestHolds hrun.consistent

/-- The directory of the database turns out not to be private. -/
theorem ingest_answers_hold_sample :
    let steps := [.beginIngest 0 sampleRequest sampleHost, .readJournal 0]
    let step := .writeDatabase 0 (.error (.projectionError "projection directory is not private"))
      fun _ => none
    let s := runService .plain plainPaths (fun _ => true) sampleApp (.start none none) steps
    let s' := (ServiceStep.run .plain plainPaths (fun _ => true) sampleApp s step).2
    ∃ body i es', body.journalCommitted = true ∧ Verified .plain s'.content es' ∧
      IngestHolds .plain sampleApp (steps ++ [step]) i es' body s.database s'.database := by
  obtain ⟨result, hworker, hcount⟩ := exists_sampleResult
  obtain ⟨new, hrun⟩ := run_from_start plainPaths (fun _ => true) sampleApp
    (@verified_nil .plain none rfl) none [.beginIngest 0 sampleRequest sampleHost]
  have hexc : isProjectionError (.projectionError "projection directory is not private") = true := rfl
  have hanswer := @unprepared_answer .plain plainPaths sampleApp (fun _ => true) _ _ 0 result
    (lit "/journal") _ hrun.consistent.verified rfl hworker hexc fun _ => none
  rw [← runService_append] at hanswer
  obtain ⟨i, es', hafter, hholds⟩ := @ingest_answers_hold .plain plainPaths sampleApp (fun _ => true)
    none [] (verified_nil rfl) none [.beginIngest 0 sampleRequest sampleHost, .readJournal 0]
    (.writeDatabase 0 (.error (.projectionError "projection directory is not private")) fun _ => none)
    _ _ hanswer
  refine ⟨_, i, es', ?_, hafter, hholds⟩
  show decide (0 < result.importedCount) = true
  rw [hcount]
  rfl

/-! ## Health -/

end ActionLineage.Service
