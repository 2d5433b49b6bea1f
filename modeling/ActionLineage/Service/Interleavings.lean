import ActionLineage.Projection.Freshness
import ActionLineage.Service.Provenance

/-!
# Any order of uses

The workers of the service share a journal and a database and hold no lock between their uses. What
a worker has in hand is therefore about the journal as it was at some time (`Worker.Holds`), and the
journal has only grown since. From this one invariant follows where events come from, in every order
of uses (`ingested_events_attributed`), and that the database is never one of another journal
(`projection_never_mismatched`).
-/

namespace ActionLineage.Service

open Py

variable {P : Platform} {R : PathResolver} {app : ServiceApp}

/-! ## What a worker has in hand -/

/-- A request that the worker was given put the events into the journal that the result reports as
imported, one behind the other; and whatever the result names is there. -/
structure ImportedBy (P : Platform) (app : ServiceApp) (steps : List ServiceStep) (i : ℕ)
    (es : List EventEnvelope) (result : BatchImportResult) : Prop where
  block : ∃ request host principal, ∃ block : List EventEnvelope,
    .beginIngest i request host ∈ steps ∧ block <:+: es ∧
      importedIds result.outcomes = block.map (·.eventId) ∧
      ∀ e ∈ block, Attributed P app request host principal e
  named : NamesEvents es result.outcomes

/-- The worker was asked for the selection by somebody who may read. -/
def AskedFor (app : ServiceApp) (steps : List ServiceStep) (i : ℕ) (selector : Selector) : Prop :=
  ∃ authorization traceId runId principal, .beginTimeline i authorization traceId runId ∈ steps ∧
    app.principal authorization = .ok principal ∧ principal.hasCapability .eventsRead = true ∧
    requireOneSelector traceId runId = .ok selector

/-- What a worker has in hand is about the journal as it is or was, and about databases that were
`seen`. -/
def Worker.Holds (P : Platform) (R : PathResolver) (app : ServiceApp)
    (seen : ProjectionDatabase → Prop) (steps : List ServiceStep) (i : ℕ) (content : Content)
    (es : List EventEnvelope) : Worker → Prop
  | idle => True
  | imported result => ImportedBy P app steps i es result
  | rebuilding result journalPath snapshot =>
    R.resolve app.journalPath = .ok journalPath ∧
      ∃ content₀ es₀, Earlier P content₀ es₀ content es ∧
        snapshot = verifiedSnapshot P content₀ es₀ ∧ ImportedBy P app steps i es₀ result
  | opening selector => ∀ q, selector = some q → AskedFor app steps i q
  | connected selector db => seen db ∧ ∀ q, selector = some q → AskedFor app steps i q
  | reading verification events =>
    ∃ content₀ es₀, Earlier P content₀ es₀ content es ∧
      verification.journalSnapshot = verifiedSnapshot P content₀ es₀ ∧
      (events = none → ∃ db, seen db ∧ HoldsRows P db es₀) ∧
      ∀ shown, events = some shown → ∃ q, ShowsTimeline P es₀ q shown ∧ AskedFor app steps i q

/-- After the steps the journal holds the events, and every worker has in hand what it should. -/
structure Consistent (P : Platform) (R : PathResolver) (app : ServiceApp)
    (seen : ProjectionDatabase → Prop) (steps : List ServiceStep) (s : ServiceState)
    (es : List EventEnvelope) : Prop where
  verified : Verified P s.content es
  workers : ∀ i, (s.workers i).Holds P R app seen steps i s.content es

theorem Consistent.holds {seen : ProjectionDatabase → Prop} {steps : List ServiceStep}
    {s : ServiceState} {es : List EventEnvelope} (h : Consistent P R app seen steps s es) {i : ℕ}
    {w : Worker} (hworker : s.workers i = w) : w.Holds P R app seen steps i s.content es := by
  rw [← hworker]
  exact h.workers i

/-- Every imported outcome is counted under its event id. -/
theorem importedCount_eq {es : List EventEnvelope} {result : BatchImportResult}
    (h : NamesEvents es result.outcomes) :
    result.importedCount = (importedIds result.outcomes).length := by
  unfold BatchImportResult.importedCount BatchImportResult.count importedIds
  rw [List.length_filterMap_eq_countP]
  refine List.countP_congr fun o ho => ?_
  by_cases hstatus : o.status = .imported
  · simp [hstatus, h.imported o ho hstatus]
  · simp [hstatus]

section Extend

variable {seen : ProjectionDatabase → Prop} {steps steps' : List ServiceStep} {i : ℕ}
  {es new : List EventEnvelope} {content content' : Content} {s s' : ServiceState}

theorem ImportedBy.extend {es' : List EventEnvelope} {result : BatchImportResult}
    (h : ImportedBy P app steps i es result) (hsteps : steps ⊆ steps') (hstarts : es <+: es') :
    ImportedBy P app steps' i es' result where
  block := by
    obtain ⟨request, host, principal, block, hmem, hblock, hrest⟩ := h.block
    exact ⟨request, host, principal, block, hsteps hmem, hblock.trans hstarts.isInfix, hrest⟩
  named := h.named.mono hstarts.subset

theorem AskedFor.extend {selector : Selector} (h : AskedFor app steps i selector)
    (hsteps : steps ⊆ steps') : AskedFor app steps' i selector := by
  obtain ⟨authorization, traceId, runId, principal, hmem, hrest⟩ := h
  exact ⟨authorization, traceId, runId, principal, hsteps hmem, hrest⟩

/-- What a worker has in hand stays good while the others go on. -/
theorem Worker.Holds.extend {w : Worker} (h : w.Holds P R app seen steps i content es)
    (hsteps : steps ⊆ steps') (hkept : new = [] → content' = content) :
    w.Holds P R app seen steps' i content' (es ++ new) := by
  cases w with
  | idle => trivial
  | imported result => exact ImportedBy.extend h hsteps (List.prefix_append es new)
  | rebuilding result journalPath snapshot =>
    obtain ⟨hpath, content₀, es₀, hearlier, hsnapshot, himported⟩ := h
    exact ⟨hpath, content₀, es₀, hearlier.extend hkept, hsnapshot,
      himported.extend hsteps List.prefix_rfl⟩
  | opening selector => exact fun q hq => (h q hq).extend hsteps
  | connected selector db => exact ⟨h.1, fun q hq => (h.2 q hq).extend hsteps⟩
  | reading verification events =>
    obtain ⟨content₀, es₀, hearlier, hsnapshot, hchecked, hshown⟩ := h
    refine ⟨content₀, es₀, hearlier.extend hkept, hsnapshot, hchecked, fun shown hsome => ?_⟩
    obtain ⟨q, hshows, hasked⟩ := hshown shown hsome
    exact ⟨q, hshows, hasked.extend hsteps⟩

/-- A step after which every worker has what it had or something good. -/
theorem Consistent.extend (h : Consistent P R app seen steps s es) (step : ServiceStep)
    (hv : Verified P s'.content (es ++ new)) (hkept : new = [] → s'.content = s.content)
    (hworkers : ∀ i, s'.workers i = s.workers i ∨
      (s'.workers i).Holds P R app seen (steps ++ [step]) i s'.content (es ++ new)) :
    Consistent P R app seen (steps ++ [step]) s' (es ++ new) where
  verified := hv
  workers i := by
    rcases hworkers i with hsame | hholds
    · rw [hsame]
      exact (h.workers i).extend (List.subset_append_left _ _) hkept
    · exact hholds

theorem setWorker_workers (s : ServiceState) (i : ℕ) (w : Worker) (j : ℕ) :
    (s.setWorker i w).workers j = if j = i then w else s.workers j := by
  unfold ServiceState.setWorker
  exact Function.update_apply s.workers i w j

end Extend

/-! ## What a step does -/

/-- The event came with the request of the step. -/
def SentBy (P : Platform) (app : ServiceApp) (step : ServiceStep) (e : EventEnvelope) : Prop :=
  ∃ i request host principal, step = .beginIngest i request host ∧
    Attributed P app request host principal e

/-- The database, which is empty before there is a file. -/
def ServiceState.projection (s : ServiceState) : ProjectionDatabase := s.database.getD .empty

/-- The step leads from a consistent state to another and keeps the database with the journal. -/
structure Proceeds (P : Platform) (R : PathResolver) (app : ServiceApp)
    (seen : ProjectionDatabase → Prop) (steps : List ServiceStep) (step : ServiceStep)
    (s : ServiceState) (es : List EventEnvelope) (s' : ServiceState) (new : List EventEnvelope) :
    Prop where
  consistent : Consistent P R app seen (steps ++ [step]) s' (es ++ new)
  kept : new = [] → s'.content = s.content
  sent : ∀ e ∈ new, SentBy P app step e
  database : BelongsTo P R s.projection s.content es →
    BelongsTo P R s'.projection s'.content (es ++ new)

section Steps

variable {seen : ProjectionDatabase → Prop} {steps : List ServiceStep} {step : ServiceStep}
  {s s' : ServiceState} {es : List EventEnvelope} {i : ℕ}

/-- A step that leaves the journal alone. -/
theorem proceeds_of_content (h : Consistent P R app seen steps s es)
    (hcontent : s'.content = s.content)
    (hworkers : ∀ j, s'.workers j = s.workers j ∨
      (s'.workers j).Holds P R app seen (steps ++ [step]) j s.content es)
    (hdatabase : BelongsTo P R s.projection s.content es →
      BelongsTo P R s'.projection s.content es) :
    Proceeds P R app seen steps step s es s' [] := by
  refine ⟨h.extend step ?_ (fun _ => hcontent) ?_, fun _ => hcontent, by simp, ?_⟩
  · rw [hcontent, List.append_nil]
    exact h.verified
  · rw [hcontent, List.append_nil]
    exact hworkers
  · rw [hcontent, List.append_nil]
    exact hdatabase

theorem proceeds_self (h : Consistent P R app seen steps s es) :
    Proceeds P R app seen steps step s es s [] :=
  proceeds_of_content h rfl (fun _ => .inl rfl) id

/-- A step that leaves a worker with something else in hand. -/
theorem proceeds_setWorker (h : Consistent P R app seen steps s es) {w : Worker}
    (hw : w.Holds P R app seen (steps ++ [step]) i s.content es) :
    Proceeds P R app seen steps step s es (s.setWorker i w) [] := by
  refine proceeds_of_content h rfl (fun j => ?_) id
  rw [setWorker_workers]
  split
  · rename_i hj
    rw [hj]
    exact .inr hw
  · exact .inl rfl

theorem beginIngest_proceeds (h : Consistent P R app seen steps s es) (acceptsPayload : Obj → Bool)
    (i : ℕ) (request : IngestRequest) (host : Surroundings) :
    ∃ new, Proceeds P R app seen steps (.beginIngest i request host) s es
      (beginIngest P acceptsPayload app s i request host).2 new := by
  unfold beginIngest
  split
  · exact ⟨[], proceeds_self h⟩
  rename_i principal hprincipal
  obtain ⟨new, hv, hattributed, hkept, hids⟩ := ingestRecords_attributed acceptsPayload host
    hprincipal h.verified
  have hsent : ∀ e ∈ new, SentBy P app (.beginIngest i request host) e :=
    fun e he => ⟨i, request, host, principal, rfl, hattributed e he⟩
  rcases hrun : ingestRecords P acceptsPayload app principal request host s.content
    with ⟨result, content⟩
  rw [hrun] at hv hkept hids
  have hdone : Proceeds P R app seen steps (.beginIngest i request host) s es { s with content } new :=
    ⟨h.extend _ hv hkept fun _ => .inl rfl, hkept, hsent, fun hdb => hdb.extend hkept⟩
  refine ⟨new, ?_⟩
  cases result with
  | error failure => exact hdone
  | ok result =>
    obtain ⟨hids, hnames⟩ := hids result rfl
    dsimp only
    split
    · refine ⟨h.extend _ hv hkept fun j => ?_, hkept, hsent, fun hdb => hdb.extend hkept⟩
      rw [setWorker_workers]
      split
      · rename_i hj
        rw [hj]
        exact .inr ⟨⟨request, host, principal, new, by simp, (List.suffix_append es new).isInfix,
          hids, hattributed⟩, hnames⟩
      · exact .inl rfl
    · exact hdone

theorem readJournal_proceeds (h : Consistent P R app seen steps s es) (i : ℕ) :
    Proceeds P R app seen steps (.readJournal i) s es (readJournal P R app s i).2 [] := by
  unfold readJournal
  split
  · rename_i result hworker
    have hholds := h.holds hworker
    cases hsource : rebuildSource P R app.journalPath s.content with
    | error exc => exact proceeds_setWorker h trivial
    | ok source =>
      obtain ⟨journalPath, snapshot⟩ := source
      obtain ⟨path, hpath, hsource⟩ := bind_eq_ok.mp hsource
      obtain ⟨s₀, hsnapshot, hsource⟩ := bind_eq_ok.mp hsource
      obtain ⟨_, -, hsource⟩ := bind_eq_ok.mp hsource
      obtain ⟨rfl, rfl⟩ := Prod.mk.inj (Except.ok.inj hsource)
      have hsame := Except.ok.inj (hsnapshot.symm.trans (snapshot_of_verified h.verified))
      have himported : ImportedBy P app (steps ++ [.readJournal i]) i es result :=
        ImportedBy.extend hholds (List.subset_append_left _ _) List.prefix_rfl
      exact proceeds_setWorker h ⟨hpath, s.content, es, earlier_refl h.verified, hsame, himported⟩
  · exact proceeds_self h

/-- The rest of a rebuild, on a file that somebody else may have rebuilt in between. -/
theorem rebuildDatabase_run {path resolved : Str} {content₀ : Content} {es₀ : List EventEnvelope}
    (hpath : R.resolve path = .ok resolved) (hv : Verified P content₀ es₀)
    (prepared : Except PyError Unit) (fault : ℕ → Option PyError)
    (database : Option ProjectionDatabase) :
    let run := rebuildDatabase P prepared fault resolved (verifiedSnapshot P content₀ es₀) database
    (∀ exc, run.1 = .error exc → SchemaTouched (database.getD .empty) (run.2.getD .empty)) ∧
      ∀ n, run.1 = .ok n → ∃ db, run.2 = some db ∧ ProjectionOf P R db content₀ es₀ := by
  unfold rebuildDatabase
  cases prepared with
  | error exc => exact ⟨fun _ _ => .inl rfl, fun _ h => by cases h⟩
  | ok done =>
    obtain ⟨hraise, hreturn⟩ := @connect_rebuild P R (database.getD .empty) path resolved content₀ _
      fault hpath (snapshot_of_verified hv) rfl
    refine ⟨fun exc h => ?_, fun n h => ⟨_, rfl, ?_⟩⟩
    · cases hrun : (connect fault (rebuildBlock P fault resolved (verifiedSnapshot P content₀ es₀))
        { committed := database.getD .empty }).1 with
      | error exc' => exact hraise exc' hrun
      | ok n =>
        dsimp only at h
        rw [hrun] at h
        cases h
    · have hrebuild := hreturn n (mapError_eq_ok.mp h)
      obtain ⟨es', source, identity, hv', hrebuilt⟩ := rebuilt_of_rebuildProjectionInto hrebuild
      obtain rfl := hv.unique hv'
      exact ⟨source, identity, hrebuilt⟩

theorem writeDatabase_proceeds (h : Consistent P R app seen steps s es) (i : ℕ)
    (prepared : Except PyError Unit) (fault : ℕ → Option PyError) :
    Proceeds P R app seen steps (.writeDatabase i prepared fault) s es
      (writeDatabase P s i prepared fault).2 [] := by
  unfold writeDatabase
  split
  · rename_i result journalPath snapshot hworker
    -- the snapshot in hand is of the journal as it was when it was read
    obtain ⟨hpath, content₀, es₀, hearlier, rfl, -⟩ := h.holds hworker
    obtain ⟨hraise, hreturn⟩ := rebuildDatabase_run hpath hearlier.verified prepared fault s.database
    rcases hrun : rebuildDatabase P prepared fault journalPath (verifiedSnapshot P content₀ es₀)
      s.database with ⟨answer, database⟩
    rw [hrun] at hraise hreturn
    have hidle (hdb : BelongsTo P R s.projection s.content es →
        BelongsTo P R (database.getD .empty) s.content es) :
        Proceeds P R app seen steps (.writeDatabase i prepared fault) s es
          ({ s with database }.setWorker i .idle) [] := by
      refine proceeds_of_content h rfl (fun j => ?_) hdb
      rw [setWorker_workers]
      split
      · exact .inr trivial
      · exact .inl rfl
    cases answer with
    -- a rebuild that raised may have created the schema of a new file
    | error exc => exact hidle fun hdb => hdb.touched (hraise exc rfl)
    | ok n =>
      obtain ⟨db, hdatabase, hprojection⟩ := hreturn n rfl
      obtain rfl : database = some db := hdatabase
      exact hidle fun _ => .inr ⟨content₀, es₀, hearlier, hprojection⟩
  · exact proceeds_self h

theorem beginTimeline_proceeds (h : Consistent P R app seen steps s es) (i : ℕ)
    (authorization traceId runId : Option Str) :
    Proceeds P R app seen steps (.beginTimeline i authorization traceId runId) s es
      (beginTimeline app s i authorization traceId runId).2 [] := by
  unfold beginTimeline
  split
  · exact proceeds_self h
  rename_i principal hprincipal
  split
  · exact proceeds_self h
  rename_i hcapable
  split
  · exact proceeds_self h
  rename_i selector hselector
  refine proceeds_setWorker h fun q hq => ?_
  rw [← Option.some.inj hq]
  exact ⟨authorization, traceId, runId, principal, by simp, hprincipal,
    requireCapability_eq_ok.mp hcapable, hselector⟩

theorem beginHealth_proceeds (h : Consistent P R app seen steps s es) (i : ℕ) :
    Proceeds P R app seen steps (.beginHealth i) s es (beginHealth P s i).2 [] := by
  unfold beginHealth
  split
  · exact proceeds_self h
  · split
    · exact proceeds_setWorker h fun q hq => by cases hq
    · exact proceeds_self h

theorem openDatabase_proceeds (h : Consistent P R app seen steps s es)
    (hseen : ∀ db, s.database = some db → seen db) (i : ℕ) :
    Proceeds P R app seen steps (.openDatabase i) s es (openDatabase s i).2 [] := by
  unfold openDatabase
  split
  · rename_i selector hworker
    have hholds := h.holds hworker
    cases hdatabase : s.database with
    | none => exact proceeds_setWorker h trivial
    | some db =>
      -- the database of this moment is one the service has had
      exact proceeds_setWorker h ⟨hseen db hdatabase,
        fun q hq => (hholds q hq).extend (List.subset_append_left _ _)⟩
  · exact proceeds_self h

/-- What a read has found when it returns. -/
theorem readProjection_reads {db : ProjectionDatabase} {content : Content}
    {selector : Option Selector} {verification : VerifiedProjectionSnapshot}
    {events : Option (List TimelineEvent)} (hv : Verified P content es)
    (h : readProjection P R db content selector = .ok (verification, events)) :
    verification.journalSnapshot = verifiedSnapshot P content es ∧
      (events = none → HoldsRows P db es) ∧
      ∀ shown, events = some shown → ∃ q, selector = some q ∧ ShowsTimeline P es q shown := by
  cases selector with
  | none =>
    obtain ⟨v, hverify, hread⟩ := map_eq_ok.mp h
    obtain ⟨rfl, rfl⟩ := Prod.mk.inj hread
    have hverification := mapError_eq_ok.mp hverify
    obtain ⟨es', rows, hv', hrows, heq⟩ := rows_of_verified hverification
    obtain rfl := hv.unique hv'
    refine ⟨?_, fun _ => ⟨rows, hrows, ?_⟩, fun _ hsome => by cases hsome⟩
    · have hsame := (journalSnapshot_of_verification hverification).symm.trans
        (snapshot_of_verified hv)
      exact Except.ok.inj hsame
    · rw [← heq]
      exact (List.perm_insertionSort _ db.events).symm
  | some q =>
    obtain ⟨⟨v, shown⟩, hread, heq⟩ := map_eq_ok.mp h
    obtain ⟨rfl, rfl⟩ := Prod.mk.inj heq
    obtain ⟨es', hv', hsnapshot, hshows⟩ := readTimeline_shows hread
    obtain rfl := hv.unique hv'
    refine ⟨hsnapshot, fun hnone => (by cases hnone), fun shown' hsome => ⟨q, rfl, ?_⟩⟩
    rw [← Option.some.inj hsome]
    exact hshows

theorem readRows_proceeds (h : Consistent P R app seen steps s es) (i : ℕ) :
    Proceeds P R app seen steps (.readRows i) s es (readRows P R s i).2 [] := by
  unfold readRows
  split
  · rename_i selector db hworker
    obtain ⟨hseen, hasked⟩ := h.holds hworker
    split
    · rename_i verification events hread
      obtain ⟨hsnapshot, hchecked, hshown⟩ := readProjection_reads h.verified hread
      refine proceeds_setWorker h ⟨s.content, es, earlier_refl h.verified, hsnapshot,
        fun hnone => ⟨db, hseen, hchecked hnone⟩, fun shown hsome => ?_⟩
      obtain ⟨q, hq, hshows⟩ := hshown shown hsome
      exact ⟨q, hshows, (hasked q hq).extend (List.subset_append_left _ _)⟩
    · exact proceeds_setWorker h trivial
  · exact proceeds_self h

theorem endRead_proceeds (h : Consistent P R app seen steps s es) (i : ℕ) :
    Proceeds P R app seen steps (.endRead i) s es (endRead P s i).2 [] := by
  unfold endRead
  split
  · split
    · exact proceeds_setWorker h trivial
    · exact proceeds_setWorker h trivial
  · exact proceeds_self h

theorem step_proceeds (h : Consistent P R app seen steps s es)
    (hseen : ∀ db, s.database = some db → seen db) (acceptsPayload : Obj → Bool)
    (step : ServiceStep) :
    ∃ new, Proceeds P R app seen steps step s es (step.run P R acceptsPayload app s).2 new := by
  cases step with
  | beginIngest i request host =>
    unfold ServiceStep.run
    dsimp only
    split
    · exact beginIngest_proceeds h acceptsPayload i request host
    · exact ⟨[], proceeds_self h⟩
  | readJournal i => exact ⟨[], readJournal_proceeds h i⟩
  | writeDatabase i prepared fault => exact ⟨[], writeDatabase_proceeds h i prepared fault⟩
  | beginTimeline i authorization traceId runId =>
    unfold ServiceStep.run
    dsimp only
    split
    · exact ⟨[], beginTimeline_proceeds h i authorization traceId runId⟩
    · exact ⟨[], proceeds_self h⟩
  | beginHealth i =>
    unfold ServiceStep.run
    dsimp only
    split
    · exact ⟨[], beginHealth_proceeds h i⟩
    · exact ⟨[], proceeds_self h⟩
  | openDatabase i => exact ⟨[], openDatabase_proceeds h hseen i⟩
  | readRows i => exact ⟨[], readRows_proceeds h i⟩
  | endRead i => exact ⟨[], endRead_proceeds h i⟩
  | listEvents authorization => exact ⟨[], proceeds_self h⟩

end Steps

/-! ## What a run does -/

variable {acceptsPayload : Obj → Bool} {content : Content} {es : List EventEnvelope}

/-- The service has had the database before or after some of the steps. -/
def Had (P : Platform) (R : PathResolver) (acceptsPayload : Obj → Bool) (app : ServiceApp)
    (s : ServiceState) (steps : List ServiceStep) (db : ProjectionDatabase) : Prop :=
  ∃ before, before <+: steps ∧ (runService P R acceptsPayload app s before).database = some db

theorem consistent_start (R : PathResolver) (app : ServiceApp) (seen : ProjectionDatabase → Prop)
    (hv : Verified P content es) (database : Option ProjectionDatabase) :
    Consistent P R app seen [] (.start content database) es :=
  ⟨hv, fun _ => trivial⟩

/-- What the steps of a run do together. -/
structure Ran (P : Platform) (R : PathResolver) (app : ServiceApp)
    (seen : ProjectionDatabase → Prop) (before steps : List ServiceStep) (s : ServiceState)
    (es : List EventEnvelope) (s' : ServiceState) (new : List EventEnvelope) : Prop where
  consistent : Consistent P R app seen (before ++ steps) s' (es ++ new)
  kept : new = [] → s'.content = s.content
  sent : ∀ e ∈ new, ∃ step ∈ steps, SentBy P app step e
  database : BelongsTo P R s.projection s.content es →
    BelongsTo P R s'.projection s'.content (es ++ new)

theorem run_proceeds {seen : ProjectionDatabase → Prop} {before : List ServiceStep}
    {s : ServiceState} (h : Consistent P R app seen before s es) (steps : List ServiceStep)
    (hseen : ∀ db, Had P R acceptsPayload app s steps db → seen db) :
    ∃ new, Ran P R app seen before steps s es (runService P R acceptsPayload app s steps) new := by
  -- from the front, so that the state the rest starts from is again consistent
  induction steps generalizing before s es with
  | nil =>
    refine ⟨[], ?_, fun _ => rfl, by simp, fun hdb => ?_⟩
    · rw [List.append_nil, List.append_nil]
      exact h
    · rw [List.append_nil]
      exact hdb
  | cons step steps ih =>
    obtain ⟨new, hstep⟩ := step_proceeds h (fun db hdb => hseen db ⟨[], List.nil_prefix, hdb⟩)
      acceptsPayload step
    obtain ⟨new', hrest⟩ := ih hstep.consistent fun db hdb => by
      obtain ⟨first, hfirst, hdb⟩ := hdb
      exact hseen db ⟨step :: first, List.cons_prefix_cons.mpr ⟨rfl, hfirst⟩, hdb⟩
    refine ⟨new ++ new', ?_, fun hnil => ?_, fun e he => ?_, fun hdb => ?_⟩
    · have hconsistent := hrest.consistent
      rw [List.append_assoc, List.append_assoc] at hconsistent
      exact hconsistent
    · obtain ⟨hnew, hnew'⟩ := List.append_eq_nil_iff.mp hnil
      exact (hrest.kept hnew').trans (hstep.kept hnew)
    · rcases List.mem_append.mp he with he | he
      · exact ⟨step, List.mem_cons_self, hstep.sent e he⟩
      · obtain ⟨step', hmem, hby⟩ := hrest.sent e he
        exact ⟨step', List.mem_cons_of_mem _ hmem, hby⟩
    · have hdatabase := hrest.database (hstep.database hdb)
      rw [List.append_assoc] at hdatabase
      exact hdatabase

/-- A run of the service from its start. -/
theorem run_from_start (R : PathResolver) (acceptsPayload : Obj → Bool) (app : ServiceApp)
    (hv : Verified P content es) (database : Option ProjectionDatabase) (steps : List ServiceStep) :
    ∃ new, Ran P R app (Had P R acceptsPayload app (.start content database) steps) [] steps
      (.start content database) es
      (runService P R acceptsPayload app (.start content database) steps) new :=
  run_proceeds (consistent_start R app _ hv database) steps fun _ hdb => hdb

/-! ## A sample -/

def sampleApp : ServiceApp where
  journalPath := lit "/journal"
  databasePath := lit "/database"
  authenticator := ⟨⟨[(lit "writer", ⟨lit "w", {.read, .write}, ∅⟩)], by decide⟩⟩

def sampleRequest : IngestRequest where
  authorization := some (lit "Bearer writer")
  requestId := none
  body := .ofFields
    [(lit "correlation", (JsonObject.ofFields
        [(lit "trace_id", jsonText (lit "t")), (lit "run_id", jsonText (lit "r"))]).value),
     (lit "records", jsonList [(JsonObject.ofFields
        [(lit "idempotency_key", jsonText (lit "k")),
         (lit "event_type", jsonText (lit "recorder.degraded")),
         (lit "payload", (JsonObject.ofFields
            [(lit "reason", jsonText (lit "disk_full"))]).value)]).value])]

def sampleHost : Surroundings where
  clock := (sampleNormalizer ["1"]).clock
  idGenerator := (sampleNormalizer ["1"]).idGenerator
  receivedAt := sampleTime
  requestUuid := lit "u"

def Worker.importedResult? : Worker → Option BatchImportResult
  | imported result => some result
  | _ => none

/-- The request is imported. -/
theorem exists_sampleResult :
    ∃ result, (runService .plain plainPaths (fun _ => true) sampleApp (.start none none)
      [.beginIngest 0 sampleRequest sampleHost]).workers 0 = .imported result ∧
        result.importedCount = 1 := by
  have hcount : (((runService .plain plainPaths (fun _ => true) sampleApp (.start none none)
      [.beginIngest 0 sampleRequest sampleHost]).workers 0).importedResult?.map
        (·.importedCount)) = some 1 := by
    decide +kernel
  obtain ⟨result, hresult, hcount⟩ := Option.map_eq_some_iff.mp hcount
  refine ⟨result, ?_, hcount⟩
  unfold Worker.importedResult? at hresult
  split at hresult
  · rename_i result' hworker
    rw [hworker, Option.some.inj hresult]
  · cases hresult

/-! ## Results -/

/-- **Provenance.** Whatever is sent to the service and however its workers take turns, every event
that gets into the journal came with a request of a principal that may write events, says so after
redaction, and is trusted only if that principal may configure the service. -/
theorem ingested_events_attributed (hv : Verified P content es)
    (database : Option ProjectionDatabase) (steps : List ServiceStep) :
    ∃ new, Verified P (runService P R acceptsPayload app (.start content database) steps).content
        (es ++ new) ∧
      ∀ e ∈ new, ingestionProvenance e = lit "service_authenticated" ∧
        ∃ i request host principal, .beginIngest i request host ∈ steps ∧
          Attributed P app request host principal e := by
  obtain ⟨new, hrun⟩ := run_from_start R acceptsPayload app hv database steps
  refine ⟨new, hrun.consistent.verified, fun e he => ?_⟩
  obtain ⟨step, hstep, i, request, host, principal, rfl, hattributed⟩ := hrun.sent e he
  exact ⟨hattributed.label, i, request, host, principal, hstep, hattributed⟩

theorem ingested_events_attributed_sample :
    ∃ new, Verified .plain (runService .plain plainPaths (fun _ => true) sampleApp
        (.start none none) [.beginIngest 0 sampleRequest sampleHost]).content ([] ++ new) ∧
      new ≠ [] ∧ ∀ e ∈ new, ingestionProvenance e = lit "service_authenticated" ∧
        ∃ i request host principal,
          .beginIngest i request host ∈ [ServiceStep.beginIngest 0 sampleRequest sampleHost] ∧
          Attributed .plain sampleApp request host principal e := by
  obtain ⟨new, hv, hnew⟩ := @ingested_events_attributed .plain plainPaths sampleApp (fun _ => true)
    none [] (verified_nil rfl) none [.beginIngest 0 sampleRequest sampleHost]
  refine ⟨new, hv, ?_, hnew⟩
  rintro rfl
  -- the worker has an event in hand that is in the journal
  obtain ⟨result, hworker, hcount⟩ := exists_sampleResult
  obtain ⟨added, hrun⟩ := run_from_start plainPaths (fun _ => true) sampleApp
    (@verified_nil .plain none rfl) none [.beginIngest 0 sampleRequest sampleHost]
  generalize runService .plain plainPaths (fun _ => true) sampleApp (.start none none)
    [.beginIngest 0 sampleRequest sampleHost] = s at hv hworker hrun
  have hsame := hrun.consistent.verified.unique hv
  rw [List.nil_append, List.nil_append] at hsame
  subst hsame
  have hholds := hrun.consistent.holds hworker
  obtain ⟨-, -, -, block, -, hblock, hids, -⟩ := hholds.block
  rw [importedCount_eq hholds.named, hids, List.eq_nil_of_infix_nil hblock] at hcount
  cases hcount

/-- **No mismatch.** The database starts new or as a projection of the journal. However rebuilds,
imports and failing statements interleave, it is then a projection of the journal, of a part of it
that the verification reports as stale, or still new. -/
theorem projection_never_mismatched (hinj : Function.Injective P.sha256Hex)
    (hv : Verified P content es) {database : Option ProjectionDatabase}
    (hdatabase : BelongsTo P R (database.getD .empty) content es) (steps : List ServiceStep) :
    let s := runService P R acceptsPayload app (.start content database) steps
    ∃ new, Verified P s.content (es ++ new) ∧ ((es ++ new).length ≠ 10 ^ maxIntDigits →
      ∀ db, s.database = some db →
        ((∃ v, verifyProjectionState P R (some db) s.content = .ok v) ∧
          HoldsRows P db (es ++ new)) ∨
        ((∃ message, verifyProjectionState P R (some db) s.content
            = .error (.projectionStateError .projectionStale message)) ∧
          ∃ es₀, es₀ <+: es ++ new ∧ es₀ ≠ es ++ new ∧ HoldsRows P db es₀) ∨
        ((∃ message, verifyProjectionState P R (some db) s.content
            = .error (.projectionStateError .projectionRebuildRequired message)) ∧
          Unfilled db)) := by
  intro s
  obtain ⟨new, hrun⟩ := run_from_start R acceptsPayload app hv database steps
  refine ⟨new, hrun.consistent.verified, fun hcount db hdb => ?_⟩
  have hbelongs : BelongsTo P R (s.database.getD .empty) s.content (es ++ new) :=
    hrun.database hdatabase
  rw [hdb] at hbelongs
  exact hbelongs.verdict hinj hrun.consistent.verified hcount

theorem projection_never_mismatched_sample :
    let steps := [.beginIngest 0 sampleRequest sampleHost, .readJournal 0,
      .writeDatabase 0 (.ok ()) fun _ => none]
    let s := runService .plain plainPaths (fun _ => true) sampleApp (.start none none) steps
    ∃ new, Verified .plain s.content ([] ++ new) ∧
      (([] ++ new : List EventEnvelope).length ≠ 10 ^ maxIntDigits → ∀ db, s.database = some db →
        ((∃ v, verifyProjectionState .plain plainPaths (some db) s.content = .ok v) ∧
          HoldsRows .plain db ([] ++ new)) ∨
        ((∃ message, verifyProjectionState .plain plainPaths (some db) s.content
            = .error (.projectionStateError .projectionStale message)) ∧
          ∃ es₀, es₀ <+: [] ++ new ∧ es₀ ≠ [] ++ new ∧ HoldsRows .plain db es₀) ∨
        ((∃ message, verifyProjectionState .plain plainPaths (some db) s.content
            = .error (.projectionStateError .projectionRebuildRequired message)) ∧
          Unfilled db)) :=
  @projection_never_mismatched .plain plainPaths sampleApp (fun _ => true) none []
    Platform.plain_injective (verified_nil rfl) none (.inl unfilled_empty) _

end ActionLineage.Service
