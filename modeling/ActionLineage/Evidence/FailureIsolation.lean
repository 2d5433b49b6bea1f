import ActionLineage.Evidence.BatchImport

/-!
# A failed record and the rest of its batch

An import goes on after a record it reports as failed. When the normalizer produced no event of that
record, the rest of the batch is imported as if the record had not been in it
(`failure_isolated`): the run without it, with generators that skip the ids and times it used up,
goes through the same states. When the event was produced and could not be appended, the normalizer
has moved past a sequence number that the journal still expects.
-/

namespace ActionLineage

open Py

variable {P : Platform} {policy : RedactionPolicy}

/-! ## Generators that skip calls -/

namespace Supply

variable {α : Type} {s s' s'' : Supply α}

/-- From call `start` on, `count` of the answers are left out. -/
def skipping (s : Supply α) (start count : Nat) : Supply α :=
  { s with answers := fun k => if k < start then s.answers k else s.answers (k + count) }

/-- The object after some more calls. -/
structure Later (s s' : Supply α) : Prop where
  answers : s'.answers = s.answers
  calls : s.calls ≤ s'.calls

theorem Later.refl (s : Supply α) : s.Later s := ⟨rfl, le_rfl⟩

theorem Later.trans (h : s.Later s') (h' : s'.Later s'') : s.Later s'' :=
  ⟨h'.answers.trans h.answers, h.calls.trans h'.calls⟩

theorem later_next (s : Supply α) : s.Later s.next := ⟨rfl, Nat.le_succ _⟩

/-- Up to call `last` of the first object, the second one answers what the first one does `shift`
calls later. -/
structure Tracks (shift last : Nat) (s s' : Supply α) : Prop where
  calls : s.calls = s'.calls + shift
  answers : ∀ k, s'.calls ≤ k → k + shift < last → s'.answers k = s.answers (k + shift)

variable {shift last : Nat}

theorem Tracks.next (h : Tracks shift last s s') : Tracks shift last s.next s'.next where
  calls := by
    have hcalls := h.calls
    simp only [Supply.next]
    omega
  answers _ hk := h.answers _ (Nat.le_of_succ_le hk)

theorem Tracks.answer (h : Tracks shift last s s') (hlast : s.next.calls ≤ last) :
    s'.answers s'.calls = s.answers s.calls := by
  rw [h.calls]
  apply h.answers _ le_rfl
  rw [← h.calls]
  exact hlast

/-- Before the first call that is left out, nothing has changed. -/
theorem tracks_skipping (s : Supply α) (start count : Nat) :
    Tracks 0 start s (s.skipping start count) where
  calls := rfl
  answers _ _ hk := if_pos hk

/-- After it, the answers are the later ones. -/
theorem tracks_of_skipped {start skipped : Supply α} (hs : start.Later s) (hskipped : s.Later skipped)
    (hs' : (start.skipping s.calls (skipped.calls - s.calls)).Later s') (hcalls : s.calls = s'.calls)
    (last : Nat) : Tracks (skipped.calls - s.calls) last skipped s' where
  calls := by
    have hle := hskipped.calls
    omega
  answers k hk _ := by
    rw [hs'.answers, hskipped.answers, hs.answers]
    exact if_neg (by omega)

end Supply

namespace EvidenceNormalizer

variable {n n' n'' : EvidenceNormalizer}

structure CallCounts where
  readings : Nat
  ids : Nat

def calls (n : EvidenceNormalizer) : CallCounts := ⟨n.clock.calls, n.idGenerator.calls⟩

/-- The calls made between `n` and `used`. -/
def callsUntil (n used : EvidenceNormalizer) : CallCounts :=
  ⟨used.clock.calls - n.clock.calls, used.idGenerator.calls - n.idGenerator.calls⟩

/-- The normalizer whose generators leave out the answers given between `before` and `used`. -/
def skipping (n before used : EvidenceNormalizer) : EvidenceNormalizer :=
  { n with
    clock := n.clock.skipping before.clock.calls (before.callsUntil used).readings
    idGenerator := n.idGenerator.skipping before.idGenerator.calls (before.callsUntil used).ids }

structure Later (n n' : EvidenceNormalizer) : Prop where
  clock : n.clock.Later n'.clock
  idGenerator : n.idGenerator.Later n'.idGenerator

theorem Later.refl (n : EvidenceNormalizer) : n.Later n := ⟨.refl _, .refl _⟩

theorem Later.trans (h : n.Later n') (h' : n'.Later n'') : n.Later n'' :=
  ⟨h.clock.trans h'.clock, h.idGenerator.trans h'.idGenerator⟩

/-- No more calls were made. -/
structure Within (n : EvidenceNormalizer) (last : CallCounts) : Prop where
  clock : n.clock.calls ≤ last.readings
  idGenerator : n.idGenerator.calls ≤ last.ids

theorem Later.within {last : CallCounts} (h : n.Later n') (h' : n'.Within last) : n.Within last :=
  ⟨h.clock.calls.trans h'.clock, h.idGenerator.calls.trans h'.idGenerator⟩

theorem within_calls (n : EvidenceNormalizer) : n.Within n.calls := ⟨le_rfl, le_rfl⟩

/-- The normalizers differ in their generators only, and these give the same answers. -/
structure Tracks (shift last : CallCounts) (n n' : EvidenceNormalizer) : Prop where
  same : n' = { n with clock := n'.clock, idGenerator := n'.idGenerator }
  clock : n.clock.Tracks shift.readings last.readings n'.clock
  idGenerator : n.idGenerator.Tracks shift.ids last.ids n'.idGenerator

variable {shift last : CallCounts}

theorem tracks_skipping (n before used : EvidenceNormalizer) :
    Tracks ⟨0, 0⟩ before.calls n (n.skipping before used) :=
  ⟨rfl, Supply.tracks_skipping _ _ _, Supply.tracks_skipping _ _ _⟩

/-- A run that skips what was used between `n` and `used` goes on as the one after `used`. -/
theorem tracks_of_skipped {start used : EvidenceNormalizer} (hn : start.Later n)
    (hused : used = { n with clock := used.clock, idGenerator := used.idGenerator })
    (hlater : n.Later used) (hn' : (start.skipping n used).Later n')
    (htracks : Tracks ⟨0, 0⟩ n.calls n n') (last : CallCounts) :
    Tracks (n.callsUntil used) last used n' where
  same := by
    rw [htracks.same, hused]
  clock := Supply.tracks_of_skipped hn.clock hlater.clock hn'.clock htracks.clock.calls _
  idGenerator := Supply.tracks_of_skipped hn.idGenerator hlater.idGenerator hn'.idGenerator
    htracks.idGenerator.calls _

theorem Tracks.sameConfiguration (h : Tracks shift last n n') : SameConfiguration n n' := by
  rw [h.same]
  exact ⟨rfl, rfl, rfl, rfl⟩

/-! ## Recording in step -/

/-- The code uses the generators for their answers only. -/
structure Lockstep {α : Type} (x : Recording α) : Prop where
  later : ∀ n : EvidenceNormalizer, n.Later (x n).2
  tracks : ∀ {shift last : CallCounts} {n n' : EvidenceNormalizer}, Tracks shift last n n' →
    (x n).2.Within last → (x n').1 = (x n).1 ∧ Tracks shift last (x n).2 (x n').2

variable {α β : Type}

theorem Lockstep.bind {x : Recording α} {f : α → Recording β} (hx : Lockstep x)
    (hf : ∀ a, Lockstep (f a)) : Lockstep (x >>= f) where
  later n := by
    have hlater := hx.later n
    cases hxn : x n with
    | mk result m =>
      rw [hxn] at hlater
      cases result with
      | error exc =>
        rw [Raising.bind_of_error hxn]
        exact hlater
      | ok a =>
        rw [Raising.bind_of_ok hxn]
        exact hlater.trans ((hf a).later m)
  tracks {shift last n n'} hn hlast := by
    cases hxn : x n with
    | mk result m =>
      cases hxn' : x n' with
      | mk result' m' =>
        have hstep := hx.tracks hn
        rw [hxn, hxn'] at hstep
        cases result with
        | error exc =>
          rw [Raising.bind_of_error hxn] at hlast ⊢
          obtain ⟨hresult, hm⟩ := hstep hlast
          obtain rfl : result' = .error exc := hresult
          rw [Raising.bind_of_error hxn']
          exact ⟨rfl, hm⟩
        | ok a =>
          rw [Raising.bind_of_ok hxn] at hlast ⊢
          obtain ⟨hresult, hm⟩ := hstep (((hf a).later m).within hlast)
          obtain rfl : result' = .ok a := hresult
          rw [Raising.bind_of_ok hxn']
          exact (hf a).tracks hm hlast

theorem lockstep_ofResult (x : Except PyError α) : Lockstep (.ofResult x) where
  later n := .refl n
  tracks hn _ := ⟨rfl, hn⟩

/-- What is read of the normalizer does not depend on the generators. -/
theorem lockstep_read {f : EvidenceNormalizer → Recording α} (hf : ∀ n, Lockstep (f n))
    (hsame : ∀ n clock idGenerator, f { n with clock, idGenerator } = f n) :
    Lockstep (.read >>= f) where
  later n := (hf n).later n
  tracks {shift last n n'} hn hlast := by
    rw [Raising.read_bind] at hlast ⊢
    rw [Raising.read_bind]
    have hread : f n' = f n := by
      rw [hn.same]
      exact hsame _ _ _
    rw [hread]
    exact (hf n).tracks hn hlast

theorem lockstep_newId : Lockstep newId where
  later n := ⟨.refl _, Supply.later_next _⟩
  tracks {shift last n n'} hn hlast := by
    refine ⟨hn.idGenerator.answer hlast.idGenerator, ?_, hn.clock, hn.idGenerator.next⟩
    simp only [newId]
    rw [hn.same]

theorem lockstep_now : Lockstep now where
  later n := ⟨Supply.later_next _, .refl _⟩
  tracks {shift last n n'} hn hlast := by
    refine ⟨hn.clock.answer hlast.clock, ?_, hn.clock.next, hn.idGenerator⟩
    simp only [now]
    rw [hn.same]

theorem lockstep_emitted (event : EventEnvelope) :
    Lockstep (Raising.modify fun n => n.emitted event) where
  later n := ⟨.refl _, .refl _⟩
  tracks {shift last n n'} hn _ := by
    refine ⟨rfl, ?_, hn.clock, hn.idGenerator⟩
    simp only [Raising.modify_apply, emitted]
    rw [hn.same]

theorem lockstep_record (eventType : Str) (payload : Obj) (o : Overrides) :
    Lockstep (record P eventType payload o) := by
  unfold record
  refine lockstep_newId.bind fun eventId => lockstep_read (fun n => ?_) fun _ _ _ => rfl
  refine (lockstep_ofResult _).bind fun rootEventId => lockstep_now.bind fun occurredAt => ?_
  refine lockstep_now.bind fun observedAt => (lockstep_ofResult _).bind fun causality => ?_
  refine (lockstep_ofResult _).bind fun event => (lockstep_emitted event).bind fun _ => ?_
  exact lockstep_ofResult (.ok event)

theorem lockstep_recordEvidence (record : EvidenceRecord) (fingerprint : Str) :
    Lockstep (recordEvidence P record fingerprint) :=
  lockstep_record _ _ _

end EvidenceNormalizer

open EvidenceNormalizer (CallCounts lockstep_recordEvidence)

/-! ## A failed record -/

/-- The normalizer produces no event of the record. -/
def NotRecorded (P : Platform) (n : EvidenceNormalizer) (record : EvidenceRecord) : Prop :=
  ∀ fingerprint event, recordIdempotencyFingerprint P record n = .ok fingerprint →
    (recordEvidence P record fingerprint n).1 ≠ .ok event

/-- What an import returns and leaves, less the outcome at the position. -/
def withoutOutcome (position : Nat) (result : Except PyError (List IngestOutcome) × Content) :
    Except PyError (List IngestOutcome) × Content :=
  (result.1.map fun outcomes => outcomes.eraseIdx position, result.2)

theorem eraseIdx_append_cons {α : Type} (before : List α) (a : α) (after : List α) :
    (before ++ a :: after).eraseIdx before.length = before ++ after := by
  rw [List.eraseIdx_append_of_length_le le_rfl, Nat.sub_self]
  rfl

theorem matchedIdempotencyOutcome_not_failed (record : EvidenceRecord) (entry : IdempotencyEntry)
    (fingerprint : Str) : (matchedIdempotencyOutcome record entry fingerprint).status ≠ .failed := by
  unfold matchedIdempotencyOutcome
  split
  · exact fun h => by cases h
  · exact fun h => by cases h

/-! ## One record less to sort -/

theorem orderedInsert_less {α : Type} {r : α → α → Prop} [DecidableRel r] [IsTrans α r] {p x : α}
    {before after : List α} (hsorted : (before ++ x :: after).Pairwise r) :
    ∃ b a, (before ++ x :: after).orderedInsert r p = b ++ x :: a ∧
      (before ++ after).orderedInsert r p = b ++ a := by
  induction before with
  | nil =>
    by_cases hle : r p x
    · refine ⟨[p], after, List.orderedInsert_cons_of_le _ _ hle, ?_⟩
      cases after with
      | nil => rfl
      | cons y after =>
        have hy : r x y := List.rel_of_pairwise_cons hsorted List.mem_cons_self
        exact List.orderedInsert_cons_of_le _ _ (trans_of r hle hy)
    · exact ⟨[], _, List.orderedInsert_of_not_le _ _ hle, rfl⟩
  | cons y before ih =>
    by_cases hle : r p y
    · exact ⟨p :: y :: before, after, List.orderedInsert_cons_of_le _ _ hle,
        List.orderedInsert_cons_of_le _ _ hle⟩
    · obtain ⟨b, a, hwith, hwithout⟩ := ih (List.pairwise_cons.mp hsorted).2
      refine ⟨y :: b, a, ?_, ?_⟩
      · rw [List.cons_append, List.orderedInsert_of_not_le _ _ hle, hwith, List.cons_append]
      · rw [List.cons_append, List.orderedInsert_of_not_le _ _ hle, hwithout, List.cons_append]

/-- Without one record, the others keep their order. -/
theorem orderedRecords_less (pre : List EvidenceRecord) (record : EvidenceRecord)
    (post : List EvidenceRecord) :
    ∃ before after, orderedRecords (pre ++ record :: post) = before ++ record :: after ∧
      orderedRecords (pre ++ post) = before ++ after := by
  induction pre with
  | nil =>
    refine ⟨_, _, List.orderedInsert_eq_take_drop _ _ _, ?_⟩
    exact (List.takeWhile_append_dropWhile).symm
  | cons p pre ih =>
    obtain ⟨before, after, hwith, hwithout⟩ := ih
    have hsorted : (orderedRecords (pre ++ record :: post)).Pairwise
        fun a b => a.orderKey ≤ b.orderKey := List.pairwise_insertionSort _ _
    rw [hwith] at hsorted
    have : IsTrans EvidenceRecord fun a b => a.orderKey ≤ b.orderKey := ⟨fun _ _ _ => le_trans⟩
    obtain ⟨b, a, hinsert, hinsert'⟩ := orderedInsert_less (p := p) hsorted
    refine ⟨b, a, ?_, ?_⟩
    · rw [← hinsert, ← hwith]
      rfl
    · rw [← hinsert', ← hwithout]
      rfl

/-! ## The batch import in step -/

section Batch

variable {shift last : CallCounts} {os os' : List IngestOutcome} {seenEntries : IdempotencyEntries}

/-- The imports are at the same point, the first one after the outcomes `os`, the second one after
`os'`. -/
structure BatchState.Alongside (shift last : CallCounts) (os os' : List IngestOutcome)
    (s s' : BatchState) : Prop where
  normalizer : s.normalizer.Tracks shift last s'.normalizer
  content : s'.content = s.content
  batchSeen : s'.batchSeen = s.batchSeen
  outcomes : ∃ tail, s.outcomes = os ++ tail ∧ s'.outcomes = os' ++ tail

theorem BatchState.Alongside.report {s s' : BatchState} (h : Alongside shift last os os' s s')
    (outcome : IngestOutcome) : Alongside shift last os os' (s.report outcome) (s'.report outcome) where
  normalizer := h.normalizer
  content := h.content
  batchSeen := h.batchSeen
  outcomes := by
    obtain ⟨tail, hs, hs'⟩ := h.outcomes
    exact ⟨tail ++ [outcome], by simp [BatchState.report, hs], by simp [BatchState.report, hs']⟩

theorem BatchState.Alongside.commit {s s' : BatchState} (h : Alongside shift last os os' s s')
    (record : EvidenceRecord) (fingerprint : Str) (persisted : EventEnvelope) :
    Alongside shift last os os' (s.commit record fingerprint persisted)
      (s'.commit record fingerprint persisted) where
  normalizer := h.normalizer
  content := h.content
  batchSeen := by simp only [BatchState.commit, h.batchSeen]
  outcomes := (h.report (importedOutcome record persisted)).outcomes

def BatchStep.state : BatchStep → BatchState
  | next s => s
  | raised _ s => s

/-- Both imports go on, or both raise the same. -/
inductive BatchStep.Alongside (shift last : CallCounts) (os os' : List IngestOutcome) :
    BatchStep → BatchStep → Prop
  | next {s s'} (h : s.Alongside shift last os os' s') : Alongside shift last os os' (.next s) (.next s')
  | raised {exc s s'} (h : s.Alongside shift last os os' s') :
      Alongside shift last os os' (.raised exc s) (.raised exc s')

theorem recordAndAppend_later (s : BatchState) (record : EvidenceRecord) (fingerprint : Str) :
    s.normalizer.Later (recordAndAppend P policy s record fingerprint).2.normalizer := by
  have hlater := (lockstep_recordEvidence (P := P) record fingerprint).later s.normalizer
  unfold recordAndAppend
  split
  · rename_i hrecord
    rwa [hrecord] at hlater
  · rename_i hrecord
    rwa [hrecord] at hlater

theorem recordAndAppend_alongside {s s' : BatchState} (h : s.Alongside shift last os os' s')
    (record : EvidenceRecord) (fingerprint : Str)
    (hlast : (recordAndAppend P policy s record fingerprint).2.normalizer.Within last) :
    (recordAndAppend P policy s' record fingerprint).1
        = (recordAndAppend P policy s record fingerprint).1 ∧
      (recordAndAppend P policy s record fingerprint).2.Alongside shift last os os'
        (recordAndAppend P policy s' record fingerprint).2 := by
  have hstep := (lockstep_recordEvidence (P := P) record fingerprint).tracks h.normalizer
  unfold recordAndAppend at hlast ⊢
  cases hrecord : recordEvidence P record fingerprint s.normalizer with
  | mk result n =>
    cases hrecord' : recordEvidence P record fingerprint s'.normalizer with
    | mk result' n' =>
      rw [hrecord, hrecord'] at hstep
      rw [hrecord] at hlast
      cases result with
      | error exc =>
        obtain ⟨hresult, hn⟩ := hstep hlast
        obtain rfl : result' = .error exc := hresult
        exact ⟨rfl, hn, h.content, h.batchSeen, h.outcomes⟩
      | ok event =>
        obtain ⟨hresult, hn⟩ := hstep hlast
        obtain rfl : result' = .ok event := hresult
        dsimp only
        rw [h.content]
        exact ⟨rfl, hn, rfl, h.batchSeen, h.outcomes⟩

theorem importBatchRecord_later (s : BatchState) (record : EvidenceRecord) :
    s.normalizer.Later (importBatchRecord P policy seenEntries s record).state.normalizer := by
  unfold importBatchRecord
  split
  · exact .refl _
  · rename_i fingerprint hf
    have hlater : s.normalizer.Later (recordAndAppend P policy s record fingerprint).2.normalizer :=
      recordAndAppend_later s record fingerprint
    dsimp only
    split
    · exact .refl _
    · split
      · rename_i hstep
        rwa [hstep] at hlater
      · rename_i hstep
        rw [hstep] at hlater
        split
        · exact hlater
        · exact hlater

theorem importBatchRecord_alongside {s s' : BatchState} (h : s.Alongside shift last os os' s')
    (record : EvidenceRecord)
    (hlast : (importBatchRecord P policy seenEntries s record).state.normalizer.Within last) :
    BatchStep.Alongside shift last os os' (importBatchRecord P policy seenEntries s record)
      (importBatchRecord P policy seenEntries s' record) := by
  unfold importBatchRecord at hlast ⊢
  rw [h.normalizer.sameConfiguration.fingerprint, h.batchSeen]
  cases hf : recordIdempotencyFingerprint P record s.normalizer with
  | error exc => exact .raised h
  | ok fingerprint =>
    rw [hf] at hlast
    dsimp only at hlast ⊢
    cases hentry : (seenEntries.lookup record.idempotencyKey.val).or
        (s.batchSeen.lookup record.idempotencyKey.val) with
    | some entry => exact .next (h.report _)
    | none =>
      rw [hentry] at hlast
      dsimp only at hlast ⊢
      have hstep := @recordAndAppend_alongside P policy _ _ _ _ _ _ h record fingerprint
      cases hrecord : recordAndAppend P policy s record fingerprint with
      | mk result t =>
        cases hrecord' : recordAndAppend P policy s' record fingerprint with
        | mk result' t' =>
          rw [hrecord, hrecord'] at hstep
          rw [hrecord] at hlast
          cases result with
          | ok persisted =>
            obtain ⟨hresult, ht⟩ := hstep hlast
            obtain rfl : result' = .ok persisted := hresult
            exact .next (ht.commit record fingerprint persisted)
          | error exc =>
            have hwithin : t.normalizer.Within last := by
              dsimp only at hlast
              split at hlast
              · exact hlast
              · exact hlast
            obtain ⟨hresult, ht⟩ := hstep hwithin
            obtain rfl : result' = .error exc := hresult
            dsimp only
            split
            · exact .next (ht.report _)
            · exact .raised ht

theorem importBatchRecords_later (s : BatchState) (records : List EvidenceRecord) :
    s.normalizer.Later (importBatchRecords P policy seenEntries s records).state.normalizer := by
  induction records generalizing s with
  | nil => exact .refl _
  | cons record records ih =>
    have hlater := @importBatchRecord_later P policy seenEntries s record
    rw [importBatchRecords]
    cases hstep : importBatchRecord P policy seenEntries s record with
    | next t =>
      rw [hstep] at hlater
      exact hlater.trans (ih t)
    | raised exc t =>
      rw [hstep] at hlater
      exact hlater

theorem importBatchRecords_alongside {s s' : BatchState} (h : s.Alongside shift last os os' s')
    (records : List EvidenceRecord)
    (hlast : (importBatchRecords P policy seenEntries s records).state.normalizer.Within last) :
    BatchStep.Alongside shift last os os' (importBatchRecords P policy seenEntries s records)
      (importBatchRecords P policy seenEntries s' records) := by
  induction records generalizing s s' with
  | nil => exact .next h
  | cons record records ih =>
    have hturn := @importBatchRecord_alongside P policy _ _ _ _ seenEntries _ _ h record
    rw [importBatchRecords] at hlast ⊢
    rw [importBatchRecords]
    generalize importBatchRecord P policy seenEntries s' record = step' at hturn
    cases hstep : importBatchRecord P policy seenEntries s record with
    | next t =>
      rw [hstep] at hturn hlast
      dsimp only at hlast
      cases hturn ((importBatchRecords_later t records).within hlast) with
      | next ht => exact ih ht hlast
    | raised exc t =>
      rw [hstep] at hturn hlast
      cases hturn hlast with
      | raised ht => exact .raised ht

/-- The second result is the first one, without the outcome behind `os'`. -/
theorem BatchStep.Alongside.result {step step' : BatchStep} {failed : IngestOutcome}
    (h : BatchStep.Alongside shift last (os' ++ [failed]) os' step step') :
    step'.result = withoutOutcome os'.length step.result := by
  cases h with
  | next h =>
    obtain ⟨tail, hs, hs'⟩ := h.outcomes
    simp only [BatchStep.result, withoutOutcome, Except.map, h.content, hs, hs']
    rw [List.append_assoc, List.singleton_append, eraseIdx_append_cons]
  | raised h => simp only [BatchStep.result, withoutOutcome, Except.map, h.content]

theorem importBatchRecords_append {start s : BatchState} {before : List EvidenceRecord}
    (hreached : importBatchRecords P policy seenEntries start before = .next s)
    (rest : List EvidenceRecord) :
    importBatchRecords P policy seenEntries start (before ++ rest)
      = importBatchRecords P policy seenEntries s rest := by
  induction before generalizing start with
  | nil =>
    obtain rfl : start = s := by simpa [importBatchRecords] using hreached
    rfl
  | cons record before ih =>
    rw [importBatchRecords] at hreached
    rw [List.cons_append, importBatchRecords]
    split at hreached
    · exact ih hreached
    · cases hreached

/-- One outcome for every record. -/
theorem importBatchRecords_outcomes_length {start s : BatchState} {records : List EvidenceRecord}
    (hreached : importBatchRecords P policy seenEntries start records = .next s) :
    s.outcomes.length = start.outcomes.length + records.length := by
  induction records generalizing start with
  | nil =>
    obtain rfl : start = s := by simpa [importBatchRecords] using hreached
    rfl
  | cons record records ih =>
    have hturn : BatchTurn P policy start record _ := importBatchRecord_turn seenEntries start record
    rw [importBatchRecords] at hreached
    generalize importBatchRecord P policy seenEntries start record = step at hturn hreached
    cases hturn with
    | raised => cases hreached
    | skipped _ houtcomes =>
      rw [ih hreached, houtcomes, List.length_append, List.length_singleton, List.length_cons]
      omega
    | imported =>
      rw [ih hreached]
      simp only [BatchState.commit, List.length_append, List.length_cons, List.length_nil]
      omega

/-- The batch import gets to the record in the state `s` and reports it as failed. -/
structure FailsInBatch (P : Platform) (policy : RedactionPolicy) (seenEntries : IdempotencyEntries)
    (start : BatchState) (before : List EvidenceRecord) (record : EvidenceRecord)
    (s s' : BatchState) : Prop where
  reached : importBatchRecords P policy seenEntries start before = .next s
  failed : ∃ exc, importBatchRecord P policy seenEntries s record = .next s' ∧
    s'.outcomes = s.outcomes ++ [failedOutcome record exc]

/-- A record that became no event leaves the loop variables as they were. -/
theorem FailsInBatch.state_eq {start s s' : BatchState} {before : List EvidenceRecord}
    {record : EvidenceRecord} (h : FailsInBatch P policy seenEntries start before record s s')
    (hnot : NotRecorded P s.normalizer record) :
    ∃ clock idGenerator exc, s'
      = { s with normalizer := { s.normalizer with clock, idGenerator } }.report
        (failedOutcome record exc) := by
  obtain ⟨exc, hstep, houtcomes⟩ := h.failed
  unfold importBatchRecord at hstep
  split at hstep
  · cases hstep
  · rename_i fingerprint hf
    dsimp only at hstep
    split at hstep
    · rename_i entry hentry
      cases hstep
      have hsame : matchedIdempotencyOutcome record entry fingerprint = failedOutcome record exc := by
        simpa [BatchState.report] using houtcomes
      exact absurd (congrArg IngestOutcome.status hsame) (matchedIdempotencyOutcome_not_failed _ _ _)
    · unfold recordAndAppend at hstep
      cases hrecord : recordEvidence P record fingerprint s.normalizer with
      | mk result n =>
        rw [hrecord] at hstep
        cases result with
        | ok event => exact absurd (congrArg Prod.fst hrecord) (hnot fingerprint event hf)
        | error exc' =>
          obtain ⟨clock, idGenerator, rfl⟩ := EvidenceNormalizer.record_eq_error hrecord
          dsimp only at hstep
          split at hstep
          · exact ⟨clock, idGenerator, exc', (BatchStep.next.inj hstep).symm⟩
          · cases hstep

/-- A record that became no event does not matter to the rest of the batch. -/
theorem batch_isolated {normalizer : EvidenceNormalizer} {existingEvents : List EventEnvelope}
    {content : Content} {records others before after : List EvidenceRecord} {record : EvidenceRecord}
    {s s' : BatchState} (hrecords : orderedRecords records = before ++ record :: after)
    (hothers : orderedRecords others = before ++ after)
    (hfails : FailsInBatch P policy (existingIdempotencyEntries existingEvents)
      ⟨normalizer, content, [], []⟩ before record s s')
    (hnot : NotRecorded P s.normalizer record) :
    importEvidenceBatch P policy (normalizer.skipping s.normalizer s'.normalizer) existingEvents
        content others
      = withoutOutcome before.length
        (importEvidenceBatch P policy normalizer existingEvents content records) := by
  have hreached := hfails.reached
  have hlength := importBatchRecords_outcomes_length hreached
  have hlater : normalizer.Later s.normalizer := by
    have h := @importBatchRecords_later P policy
      (existingIdempotencyEntries existingEvents) ⟨normalizer, content, [], []⟩ before
    rwa [hreached] at h
  have hused : s.normalizer.Later s'.normalizer := by
    have h := @importBatchRecord_later P policy
      (existingIdempotencyEntries existingEvents) s record
    obtain ⟨exc, hstep, -⟩ := hfails.failed
    rwa [hstep] at h
  -- the records before the failed one
  have hstart : BatchState.Alongside ⟨0, 0⟩ s.normalizer.calls [] [] ⟨normalizer, content, [], []⟩
      ⟨normalizer.skipping s.normalizer s'.normalizer, content, [], []⟩ :=
    ⟨EvidenceNormalizer.tracks_skipping _ _ _, rfl, rfl, [], rfl, rfl⟩
  have hbefore := @importBatchRecords_alongside P policy _ _ _ _
    (existingIdempotencyEntries existingEvents) _ _ hstart before
  have hlater' := @importBatchRecords_later P policy
    (existingIdempotencyEntries existingEvents)
    ⟨normalizer.skipping s.normalizer s'.normalizer, content, [], []⟩ before
  rw [hreached] at hbefore
  generalize hrun : importBatchRecords P policy (existingIdempotencyEntries existingEvents)
    ⟨normalizer.skipping s.normalizer s'.normalizer, content, [], []⟩ before = step
    at hbefore hlater'
  cases hbefore s.normalizer.within_calls with
  | @next _ t h =>
    -- the records after it
    obtain ⟨clock, idGenerator, exc, hs'⟩ := hfails.state_eq hnot
    obtain ⟨-, hstep, -⟩ := hfails.failed
    have hafter : BatchState.Alongside (s.normalizer.callsUntil s'.normalizer)
        (importBatchRecords P policy (existingIdempotencyEntries existingEvents) s'
          after).state.normalizer.calls
        (s.outcomes ++ [failedOutcome record exc]) s.outcomes s' t := by
      refine ⟨EvidenceNormalizer.tracks_of_skipped hlater ?_ hused hlater' h.normalizer _, ?_, ?_,
        [], ?_, ?_⟩
      · rw [hs']
        rfl
      · rw [hs']
        exact h.content
      · rw [hs']
        exact h.batchSeen
      · rw [hs', List.append_nil]
        rfl
      · obtain ⟨tail, hs, ht⟩ := h.outcomes
        rw [ht, hs, List.append_nil]
    have hresult := (importBatchRecords_alongside hafter after
      (EvidenceNormalizer.within_calls _)).result
    rw [importEvidenceBatch, importEvidenceBatch, hrecords, hothers,
      importBatchRecords_append hreached, importBatchRecords_append hrun, importBatchRecords, hstep,
      hresult, hlength]
    simp

end Batch

/-! ## The atomic import in step -/

section Atomic

variable {shift last : CallCounts} {os os' : List IngestOutcome} {seenEntries : IdempotencyEntries}

/-- The imports are at the same point, the first one after the outcomes `os`, the second one after
`os'`. -/
structure ImportState.Alongside (shift last : CallCounts) (os os' : List IngestOutcome)
    (s s' : ImportState) : Prop where
  normalizer : s.normalizer.Tracks shift last s'.normalizer
  content : s'.content = s.content
  batchSeen : s'.batchSeen = s.batchSeen
  outcomes : ∃ tail, s.outcomes = os ++ tail ∧ s'.outcomes = os' ++ tail
  nextSequence : s'.nextSequence = s.nextSequence
  previousEventHash : s'.previousEventHash = s.previousEventHash

namespace ImportState.Alongside

variable {s s' : ImportState}

theorem report (h : Alongside shift last os os' s s') (outcome : IngestOutcome) :
    Alongside shift last os os' (s.report outcome) (s'.report outcome) :=
  { h with
    outcomes := by
      obtain ⟨tail, hs, hs'⟩ := h.outcomes
      exact ⟨tail ++ [outcome], by simp [ImportState.report, hs], by simp [ImportState.report, hs']⟩ }

theorem withNormalizer (h : Alongside shift last os os' s s') {n n' : EvidenceNormalizer}
    (hn : n.Tracks shift last n') :
    Alongside shift last os os' { s with normalizer := n } { s' with normalizer := n' } :=
  { h with normalizer := hn }

theorem commit (h : Alongside shift last os os' s s') (record : EvidenceRecord) (fingerprint : Str)
    (persisted : EventEnvelope) (content : Content) :
    Alongside shift last os os' (s.commit record fingerprint persisted content)
      (s'.commit record fingerprint persisted content) where
  normalizer := h.normalizer
  content := rfl
  batchSeen := by simp only [ImportState.commit, h.batchSeen]
  outcomes := (h.report (importedOutcome record persisted)).outcomes
  nextSequence := congrArg (· + 1) h.nextSequence
  previousEventHash := rfl

end ImportState.Alongside

def ImportStep.state : ImportStep → ImportState
  | next s => s
  | stop s => s
  | raised _ s => s

/-- Both imports go on, both break off, or both raise the same. -/
inductive ImportStep.Alongside (shift last : CallCounts) (os os' : List IngestOutcome) :
    ImportStep → ImportStep → Prop
  | next {s s'} (h : s.Alongside shift last os os' s') : Alongside shift last os os' (.next s) (.next s')
  | stop {s s'} (h : s.Alongside shift last os os' s') : Alongside shift last os os' (.stop s) (.stop s')
  | raised {exc s s'} (h : s.Alongside shift last os os' s') :
      Alongside shift last os os' (.raised exc s) (.raised exc s')

theorem importEvent_alongside {s s' : ImportState} (h : s.Alongside shift last os os' s')
    (record : EvidenceRecord) (fingerprint : Str)
    (hlast : (importEvent P policy s record fingerprint).2.Within last) :
    (importEvent P policy s' record fingerprint).1 = (importEvent P policy s record fingerprint).1 ∧
      (importEvent P policy s record fingerprint).2.Tracks shift last
        (importEvent P policy s' record fingerprint).2 := by
  obtain ⟨hresult, hn⟩ := (lockstep_recordEvidence (P := P) record fingerprint).tracks h.normalizer
    hlast
  refine ⟨?_, hn⟩
  unfold importEvent
  dsimp only
  rw [hresult, h.content, h.nextSequence, h.previousEventHash]

theorem handleFailure_alongside {s s' : ImportState} (h : s.Alongside shift last os os' s')
    (record : EvidenceRecord) (exc : PyError) :
    ImportStep.Alongside shift last os os' (handleFailure s record exc)
      (handleFailure s' record exc) := by
  unfold handleFailure
  rw [h.batchSeen]
  split
  · split
    · exact .raised h
    · exact .stop (h.report _)
  · split
    · exact .next (h.report _)
    · exact .raised h

@[simp] theorem handleFailure_normalizer (s : ImportState) (record : EvidenceRecord)
    (exc : PyError) : (handleFailure s record exc).state.normalizer = s.normalizer := by
  unfold handleFailure
  split_ifs <;> rfl

theorem importRecord_later (s : ImportState) (record : EvidenceRecord) :
    s.normalizer.Later (importRecord P policy seenEntries s record).state.normalizer := by
  have hturn : ImportTurn P policy seenEntries s record _ := importRecord_turn seenEntries s record
  generalize importRecord P policy seenEntries s record = step at hturn
  have hlater (fingerprint : Str) : s.normalizer.Later (importEvent P policy s record fingerprint).2 :=
    (lockstep_recordEvidence record fingerprint).later s.normalizer
  cases hturn with
  | unwritable => exact .refl _
  | matched => exact .refl _
  | @imported fingerprint _ _ _ _ _ himport =>
    have h := hlater fingerprint
    rwa [himport] at h
  | @failed fingerprint _ _ _ _ himport =>
    have h := hlater fingerprint
    rw [himport] at h
    rwa [handleFailure_normalizer]

theorem importRecord_alongside {s s' : ImportState} (h : s.Alongside shift last os os' s')
    (record : EvidenceRecord)
    (hlast : (importRecord P policy seenEntries s record).state.normalizer.Within last) :
    ImportStep.Alongside shift last os os' (importRecord P policy seenEntries s record)
      (importRecord P policy seenEntries s' record) := by
  have hturn : ImportTurn P policy seenEntries s record _ := importRecord_turn seenEntries s record
  have hentry : matchedEntry seenEntries s' record = matchedEntry seenEntries s record := by
    rw [matchedEntry, matchedEntry, h.batchSeen]
  have hfingerprint := h.normalizer.sameConfiguration.fingerprint (P := P) record
  generalize importRecord P policy seenEntries s record = step at hturn hlast
  cases hturn with
  | unwritable hf =>
    rw [importRecord_unwritable (hfingerprint.trans hf)]
    exact .raised h
  | matched hf hmatched =>
    rw [importRecord_matched (hfingerprint.trans hf) (hentry.trans hmatched)]
    exact .next (h.report _)
  | @imported fingerprint persisted content n hf hnew himport =>
    have hstep := @importEvent_alongside P policy _ _ _ _ _ _ h record fingerprint
    cases himport' : importEvent P policy s' record fingerprint with
    | mk result' n' =>
      rw [himport, himport'] at hstep
      obtain ⟨hresult, hn⟩ := hstep hlast
      obtain rfl : result' = .ok (persisted, content) := hresult
      rw [importRecord_imported (hfingerprint.trans hf) (hentry.trans hnew) himport']
      exact .next ((h.withNormalizer hn).commit record fingerprint persisted content)
  | @failed fingerprint exc n hf hnew himport =>
    have hstep := @importEvent_alongside P policy _ _ _ _ _ _ h record fingerprint
    rw [handleFailure_normalizer] at hlast
    cases himport' : importEvent P policy s' record fingerprint with
    | mk result' n' =>
      rw [himport, himport'] at hstep
      obtain ⟨hresult, hn⟩ := hstep hlast
      obtain rfl : result' = .error exc := hresult
      rw [importRecord_failed (hfingerprint.trans hf) (hentry.trans hnew) himport']
      exact handleFailure_alongside (h.withNormalizer hn) record exc

theorem importRecords_later (s : ImportState) (records : List EvidenceRecord) :
    s.normalizer.Later (importRecords P policy seenEntries s records).state.normalizer := by
  induction records generalizing s with
  | nil => exact .refl _
  | cons record records ih =>
    have hlater := @importRecord_later P policy seenEntries s record
    rw [importRecords]
    cases hstep : importRecord P policy seenEntries s record with
    | next t =>
      rw [hstep] at hlater
      exact hlater.trans (ih t)
    | stop t =>
      rw [hstep] at hlater
      exact hlater
    | raised exc t =>
      rw [hstep] at hlater
      exact hlater

theorem importRecords_alongside {s s' : ImportState} (h : s.Alongside shift last os os' s')
    (records : List EvidenceRecord)
    (hlast : (importRecords P policy seenEntries s records).state.normalizer.Within last) :
    ImportStep.Alongside shift last os os' (importRecords P policy seenEntries s records)
      (importRecords P policy seenEntries s' records) := by
  induction records generalizing s s' with
  | nil => exact .next h
  | cons record records ih =>
    have hturn := @importRecord_alongside P policy _ _ _ _ seenEntries _ _ h record
    rw [importRecords] at hlast ⊢
    rw [importRecords]
    generalize importRecord P policy seenEntries s' record = step' at hturn
    cases hstep : importRecord P policy seenEntries s record with
    | next t =>
      rw [hstep] at hturn hlast
      dsimp only at hlast
      cases hturn ((importRecords_later t records).within hlast) with
      | next ht => exact ih ht hlast
    | stop t =>
      rw [hstep] at hturn hlast
      cases hturn hlast with
      | stop ht => exact .stop ht
    | raised exc t =>
      rw [hstep] at hturn hlast
      cases hturn hlast with
      | raised ht => exact .raised ht

theorem ImportStep.Alongside.result {step step' : ImportStep} {failed : IngestOutcome}
    (h : ImportStep.Alongside shift last (os' ++ [failed]) os' step step') :
    step'.result = withoutOutcome os'.length step.result := by
  have houtcomes {s s' : ImportState} (h : s.Alongside shift last (os' ++ [failed]) os' s') :
      s'.outcomes = s.outcomes.eraseIdx os'.length := by
    obtain ⟨tail, hs, hs'⟩ := h.outcomes
    rw [hs, hs', List.append_assoc, List.singleton_append, eraseIdx_append_cons]
  cases h with
  | next h => simp only [ImportStep.result, withoutOutcome, Except.map, h.content, houtcomes h]
  | stop h => simp only [ImportStep.result, withoutOutcome, Except.map, h.content, houtcomes h]
  | raised h => simp only [ImportStep.result, withoutOutcome, Except.map, h.content]

/-- The loop that went on to `s` passed through reached states only. -/
theorem reached_of_next {start s : ImportState} {before : List EvidenceRecord}
    (h : importRecords P policy seenEntries start before = .next s) :
    ∃ new, Reached P policy seenEntries start before s new := by
  have hcases := importRecords_reached P policy seenEntries start before
  rw [h] at hcases
  rcases hcases with ⟨s', new, hs, hreached⟩ | ⟨_, _, _, _, _, -, -, hends⟩
  · obtain rfl := ImportStep.next.inj hs
    exact ⟨new, hreached⟩
  · cases hends

/-- The atomic import gets to the record in the state `s`, reports it as failed and goes on. -/
structure FailsInImport (P : Platform) (policy : RedactionPolicy) (seenEntries : IdempotencyEntries)
    (start : ImportState) (before : List EvidenceRecord) (record : EvidenceRecord)
    (s s' : ImportState) : Prop where
  reached : importRecords P policy seenEntries start before = .next s
  failed : ∃ exc, importRecord P policy seenEntries s record = .next s' ∧
    s'.outcomes = s.outcomes ++ [failedOutcome record exc]

/-- The body of the `try` raised, and the loop went on. -/
theorem FailsInImport.event_failed {start s s' : ImportState} {before : List EvidenceRecord}
    {record : EvidenceRecord} (h : FailsInImport P policy seenEntries start before record s s') :
    ∃ fingerprint exc n, recordIdempotencyFingerprint P record s.normalizer = .ok fingerprint ∧
      importEvent P policy s record fingerprint = (.error exc, n) ∧
      s' = { s with normalizer := n }.report (failedOutcome record exc) := by
  obtain ⟨exc, hstep, houtcomes⟩ := h.failed
  have hturn : ImportTurn P policy seenEntries s record _ := importRecord_turn seenEntries s record
  rw [hstep] at hturn
  generalize hnext : ImportStep.next s' = step at hturn
  cases hturn with
  | unwritable => cases hnext
  | @matched fingerprint entry =>
    obtain rfl := ImportStep.next.inj hnext
    have hsame : matchedIdempotencyOutcome record entry fingerprint = failedOutcome record exc := by
      simpa [ImportState.report] using houtcomes
    exact absurd (congrArg IngestOutcome.status hsame) (matchedIdempotencyOutcome_not_failed _ _ _)
  | @imported fingerprint persisted _ _ =>
    obtain rfl := ImportStep.next.inj hnext
    have hsame : importedOutcome record persisted = failedOutcome record exc := by
      simpa [ImportState.commit] using houtcomes
    cases congrArg IngestOutcome.status hsame
  | @failed fingerprint exc' n hf _ himport =>
    refine ⟨fingerprint, exc', n, hf, himport, ?_⟩
    unfold handleFailure at hnext
    split at hnext
    · split at hnext
      · cases hnext
      · cases hnext
    · split at hnext
      · exact ImportStep.next.inj hnext
      · cases hnext

theorem FailsInImport.state_eq {start s s' : ImportState} {before : List EvidenceRecord}
    {record : EvidenceRecord} (h : FailsInImport P policy seenEntries start before record s s')
    (hnot : NotRecorded P s.normalizer record) :
    ∃ clock idGenerator exc, s'
      = { s with normalizer := { s.normalizer with clock, idGenerator } }.report
        (failedOutcome record exc) := by
  obtain ⟨fingerprint, exc, n, hf, himport, hs'⟩ := h.event_failed
  obtain rfl : (recordEvidence P record fingerprint s.normalizer).2 = n := congrArg Prod.snd himport
  cases hrecord : recordEvidence P record fingerprint s.normalizer with
  | mk result m =>
    rw [hrecord] at hs'
    cases result with
    | ok event => exact absurd (congrArg Prod.fst hrecord) (hnot fingerprint event hf)
    | error exc' =>
      obtain ⟨clock, idGenerator, rfl⟩ := EvidenceNormalizer.record_eq_error hrecord
      exact ⟨clock, idGenerator, exc, hs'⟩

theorem rebase_skipping (n before used : EvidenceNormalizer) (k : Nat) :
    (n.skipping before used).rebaseInitialSequence k
      = (n.rebaseInitialSequence k).map fun rebased => rebased.skipping before used := by
  unfold EvidenceNormalizer.rebaseInitialSequence
  split <;> split <;> first | rfl | contradiction

/-- The loop on the other records. -/
theorem importRecords_isolated {normalizer : EvidenceNormalizer} {content : Content}
    {snapshot : VerifiedJournalSnapshot} {before after : List EvidenceRecord}
    {record : EvidenceRecord} {s s' : ImportState}
    (hfails : FailsInImport P policy seenEntries (.start normalizer content snapshot) before record s
      s') (hnot : NotRecorded P s.normalizer record) :
    (importRecords P policy seenEntries
        (.start (normalizer.skipping s.normalizer s'.normalizer) content snapshot)
        (before ++ after)).result
      = withoutOutcome before.length (importRecords P policy seenEntries
        (.start normalizer content snapshot) (before ++ record :: after)).result := by
  obtain ⟨new, hreached⟩ := reached_of_next hfails.reached
  have hlength := hreached.outcomes_length rfl
  have hlater := @importRecords_later P policy seenEntries
    (.start normalizer content snapshot) before
  rw [hfails.reached] at hlater
  have hused : s.normalizer.Later s'.normalizer := by
    have h := @importRecord_later P policy seenEntries s record
    obtain ⟨exc, hstep, -⟩ := hfails.failed
    rwa [hstep] at h
  -- the records before the failed one
  have hstart : ImportState.Alongside ⟨0, 0⟩ s.normalizer.calls [] []
      (.start normalizer content snapshot)
      (.start (normalizer.skipping s.normalizer s'.normalizer) content snapshot) :=
    ⟨EvidenceNormalizer.tracks_skipping _ _ _, rfl, rfl, ⟨[], rfl, rfl⟩, rfl, rfl⟩
  have hbefore := @importRecords_alongside P policy _ _ _ _ seenEntries _ _ hstart before
  have hlater' := @importRecords_later P policy seenEntries
    (.start (normalizer.skipping s.normalizer s'.normalizer) content snapshot) before
  rw [hfails.reached] at hbefore
  generalize hrun : importRecords P policy seenEntries
    (.start (normalizer.skipping s.normalizer s'.normalizer) content snapshot) before = step
    at hbefore hlater'
  cases hbefore s.normalizer.within_calls with
  | @next _ t h =>
    obtain ⟨new', hreached'⟩ := reached_of_next hrun
    -- the records after it
    obtain ⟨clock, idGenerator, exc, hs'⟩ := hfails.state_eq hnot
    obtain ⟨-, hstep, -⟩ := hfails.failed
    have hafter : ImportState.Alongside (s.normalizer.callsUntil s'.normalizer)
        (importRecords P policy seenEntries s' after).state.normalizer.calls
        (s.outcomes ++ [failedOutcome record exc]) s.outcomes s' t := by
      refine ⟨EvidenceNormalizer.tracks_of_skipped hlater ?_ hused hlater' h.normalizer _, ?_, ?_,
        ⟨[], ?_, ?_⟩, ?_, ?_⟩
      · rw [hs']
        rfl
      · rw [hs']
        exact h.content
      · rw [hs']
        exact h.batchSeen
      · rw [hs', List.append_nil]
        rfl
      · obtain ⟨tail, hs, ht⟩ := h.outcomes
        rw [ht, hs, List.append_nil]
      · rw [hs']
        exact h.nextSequence
      · rw [hs']
        exact h.previousEventHash
    have hresult := (importRecords_alongside hafter after
      (EvidenceNormalizer.within_calls _)).result
    rw [hreached.importRecords_append, hreached'.importRecords_append, importRecords, hstep, hresult,
      hlength]

theorem atomic_isolated {normalizer rebased : EvidenceNormalizer} {content : Content}
    {snapshot : VerifiedJournalSnapshot} {records others before after : List EvidenceRecord}
    {record : EvidenceRecord} {s s' : ImportState}
    (hsnapshot : verifiedJournalSnapshot P content none .null = .ok snapshot)
    (hrebase : normalizer.rebaseInitialSequence snapshot.recordCount = .ok rebased)
    (hrecords : orderedRecords records = before ++ record :: after)
    (hothers : orderedRecords others = before ++ after)
    (hfails : FailsInImport P policy (existingIdempotencyEntries snapshot.events)
      (.start rebased content snapshot) before record s s')
    (hnot : NotRecorded P s.normalizer record) :
    importEvidenceBatchAtomically P policy (normalizer.skipping s.normalizer s'.normalizer) content
        others
      = withoutOutcome before.length
        (importEvidenceBatchAtomically P policy normalizer content records) := by
  unfold importEvidenceBatchAtomically
  simp only [hsnapshot, rebase_skipping, hrebase, hrecords, hothers, bind, Except.bind, Except.map]
  cases require snapshot.ok
    (.journalAppendError "cannot append to a journal that fails verification") with
  | error exc => rfl
  | ok => exact importRecords_isolated hfails hnot

/-! ## An event that was produced and not appended -/

/-- A normalizer ahead of the journal stays ahead, and nothing is appended. -/
theorem Reached.nothing_new {start s : ImportState} {done : List EvidenceRecord}
    {new : List (EvidenceRecord × EventEnvelope)} (h : Reached P policy seenEntries start done s new)
    (hahead : start.nextSequence < start.normalizer.sequence) :
    new = [] ∧ s.nextSequence < s.normalizer.sequence := by
  induction h with
  | start => exact ⟨rfl, hahead⟩
  | matched _ _ _ ih => exact ih
  | imported _ _ _ himport ih =>
    obtain ⟨event, line, hproduced, -, hseq, -, -⟩ := importEvent_eq_ok himport
    have hproducedSeq := hproduced.sequence
    omega
  | failed _ _ _ himport _ _ ih =>
    refine ⟨ih.1, ?_⟩
    obtain ⟨clock, idGenerator, rfl | ⟨event, rfl⟩⟩ := importEvent_eq_error himport
    · exact ih.2
    · simp only [ImportState.report, EvidenceNormalizer.emitted]
      omega

theorem content_of_ahead {s : ImportState} (hahead : s.nextSequence < s.normalizer.sequence)
    (records : List EvidenceRecord) :
    (importRecords P policy seenEntries s records).result.2 = s.content := by
  have hsame {done : List EvidenceRecord} {t : ImportState}
      {new : List (EvidenceRecord × EventEnvelope)}
      (ht : Reached P policy seenEntries s done t new) : t.content = s.content := by
    obtain ⟨-, -, -, hcontent⟩ := ht.content_eq
    exact hcontent (ht.nothing_new hahead).1
  rcases importRecords_reached P policy seenEntries s records with
    ⟨t, new, hrun, ht⟩ | ⟨before, record, after, t, new, -, ht, hends⟩
  · rw [hrun]
    exact hsame ht
  · exact hends.content.trans (hsame ht)

/-- A record whose event was produced and not appended moves the normalizer ahead. -/
theorem FailsInImport.ahead {start s s' : ImportState} {before : List EvidenceRecord}
    {record : EvidenceRecord} (h : FailsInImport P policy seenEntries start before record s s')
    (hrecorded : ¬ NotRecorded P s.normalizer record)
    (hle : s.nextSequence ≤ s.normalizer.sequence) :
    s'.nextSequence < s'.normalizer.sequence ∧ s'.content = s.content := by
  obtain ⟨fingerprint, exc, n, hf, himport, rfl⟩ := h.event_failed
  refine ⟨?_, rfl⟩
  obtain rfl : (recordEvidence P record fingerprint s.normalizer).2 = n := congrArg Prod.snd himport
  cases hrecord : recordEvidence P record fingerprint s.normalizer with
  | mk result m =>
    cases result with
    | ok event =>
      obtain ⟨⟨clock, idGenerator, rfl⟩, -⟩ := EvidenceNormalizer.record_eq_ok hrecord
      simp only [ImportState.report, EvidenceNormalizer.emitted]
      omega
    | error exc' =>
      refine absurd (fun fingerprint' event hf' => ?_) hrecorded
      obtain rfl := Except.ok.inj (hf.symm.trans hf')
      rw [hrecord]
      intro h
      cases h

/-- Then the import appends nothing after the record. -/
theorem atomic_stalls {normalizer rebased : EvidenceNormalizer} {content : Content}
    {snapshot : VerifiedJournalSnapshot} {records before after : List EvidenceRecord}
    {record : EvidenceRecord} {s s' : ImportState}
    (hsnapshot : verifiedJournalSnapshot P content none .null = .ok snapshot)
    (hok : snapshot.ok = true)
    (hrebase : normalizer.rebaseInitialSequence snapshot.recordCount = .ok rebased)
    (hrecords : orderedRecords records = before ++ record :: after)
    (hfails : FailsInImport P policy (existingIdempotencyEntries snapshot.events)
      (.start rebased content snapshot) before record s s')
    (hrecorded : ¬ NotRecorded P s.normalizer record) :
    (importEvidenceBatchAtomically P policy normalizer content records).2 = s.content := by
  obtain ⟨new, hreached⟩ := reached_of_next hfails.reached
  obtain ⟨hsequence, hroot⟩ := rebaseInitialSequence_eq_ok hrebase
  have hle : s.nextSequence ≤ s.normalizer.sequence := by
    rcases (hreached.closed hsequence hroot).2 with hahead | ⟨heq, -⟩
    · exact hahead.le
    · exact heq.ge
  obtain ⟨hahead, hcontent⟩ := hfails.ahead hrecorded hle
  obtain ⟨exc, hstep, -⟩ := hfails.failed
  unfold importEvidenceBatchAtomically
  simp only [hsnapshot, hok, hrebase, hrecords, bind, Except.bind, require, if_true]
  rw [hreached.importRecords_append, importRecords, hstep]
  exact (content_of_ahead hahead after).trans hcontent

end Atomic

/-! ## Isolation -/

/-- Without the record, and with generators that skip what it used up between `before` and `used`,
the import returns the other outcomes and leaves the same journal. -/
def Isolated
    (importing : EvidenceNormalizer → List EvidenceRecord →
      Except PyError (List IngestOutcome) × Content)
    (normalizer : EvidenceNormalizer) (records others : List EvidenceRecord) (position : Nat)
    (before used : EvidenceNormalizer) : Prop :=
  importing (normalizer.skipping before used) others
    = withoutOutcome position (importing normalizer records)

/-- **Failure isolation.** A failed record that became no event does not matter to the rest of its
batch. After one that did, the atomic import appends nothing more. -/
theorem failure_isolated (P : Platform) (policy : RedactionPolicy) (normalizer : EvidenceNormalizer)
    (content : Content) (pre post : List EvidenceRecord) (record : EvidenceRecord) :
    (∃ before after, orderedRecords (pre ++ record :: post) = before ++ record :: after ∧
      orderedRecords (pre ++ post) = before ++ after) ∧
    ∀ before after, orderedRecords (pre ++ record :: post) = before ++ record :: after →
      orderedRecords (pre ++ post) = before ++ after →
      (∀ existingEvents s s', FailsInBatch P policy (existingIdempotencyEntries existingEvents)
          ⟨normalizer, content, [], []⟩ before record s s' → NotRecorded P s.normalizer record →
          Isolated (fun n records => importEvidenceBatch P policy n existingEvents content records)
            normalizer (pre ++ record :: post) (pre ++ post) before.length s.normalizer
            s'.normalizer) ∧
      ∀ snapshot rebased s s', verifiedJournalSnapshot P content none .null = .ok snapshot →
        snapshot.ok = true →
        normalizer.rebaseInitialSequence snapshot.recordCount = .ok rebased →
        FailsInImport P policy (existingIdempotencyEntries snapshot.events)
          (.start rebased content snapshot) before record s s' →
        (NotRecorded P s.normalizer record →
          Isolated (fun n records => importEvidenceBatchAtomically P policy n content records)
            normalizer (pre ++ record :: post) (pre ++ post) before.length s.normalizer
            s'.normalizer) ∧
        (¬ NotRecorded P s.normalizer record →
          (importEvidenceBatchAtomically P policy normalizer content (pre ++ record :: post)).2
            = s.content) := by
  refine ⟨orderedRecords_less pre record post, fun before after hrecords hothers => ⟨?_, ?_⟩⟩
  · intro existingEvents s s' hfails hnot
    exact batch_isolated hrecords hothers hfails hnot
  · intro snapshot rebased s s' hsnapshot hok hrebase hfails
    exact ⟨atomic_isolated hsnapshot hrebase hrecords hothers hfails,
      atomic_stalls hsnapshot hok hrebase hrecords hfails⟩

/-- A record the normalizer refuses with a `ValueError` is reported as failed. -/
theorem importBatchRecord_refused {seenEntries : IdempotencyEntries} {s : BatchState}
    {record : EvidenceRecord} {fingerprint : Str} {exc : PyError} {n : EvidenceNormalizer}
    (hf : recordIdempotencyFingerprint P record s.normalizer = .ok fingerprint)
    (hnew : (seenEntries.lookup record.idempotencyKey.val).or
      (s.batchSeen.lookup record.idempotencyKey.val) = none)
    (hrecord : recordEvidence P record fingerprint s.normalizer = (.error exc, n))
    (hexc : exc.isValueError = true) :
    importBatchRecord P policy seenEntries s record
      = .next ({ s with normalizer := n }.report (failedOutcome record exc)) := by
  unfold importBatchRecord
  simp only [hf, hnew, recordAndAppend, hrecord, hexc, Bool.or_true, if_true]

theorem importRecord_refused {seenEntries : IdempotencyEntries} {s : ImportState}
    {record : EvidenceRecord} {fingerprint : Str} {exc : PyError} {n : EvidenceNormalizer}
    (hf : recordIdempotencyFingerprint P record s.normalizer = .ok fingerprint)
    (hnew : matchedEntry seenEntries s record = none)
    (hrecord : recordEvidence P record fingerprint s.normalizer = (.error exc, n))
    (hexc : exc.isJournalError = false) (hexc' : exc.isValueError = true) :
    importRecord P policy seenEntries s record
      = .next ({ s with normalizer := n }.report (failedOutcome record exc)) := by
  have himport : importEvent P policy s record fingerprint = (.error exc, n) := by
    simp only [importEvent, hrecord, bind, Except.bind]
  rw [importRecord_failed hf hnew himport, handleFailure, hexc, hexc', if_neg Bool.false_ne_true,
    if_pos rfl]

/-- A generator that first answers with an empty id: the first event is refused by its own check. -/
theorem failure_isolated_sample :
    let P := Platform.checksummed
    let policy := RedactionPolicy.default P
    let normalizer := sampleNormalizer ["", "a"]
    let first := sampleRecord (sampleText "k1") emptyPayload
    let second := sampleRecord (sampleText "k2") emptyPayload
    ∃ used, Isolated (fun n records => importEvidenceBatch P policy n [] none records) normalizer
        [first, second] [second] 0 normalizer used ∧
      Isolated (fun n records => importEvidenceBatchAtomically P policy n none records) normalizer
        [first, second] [second] 0 normalizer used := by
  intro P policy normalizer first second
  have hrefused (fingerprint : Str) : recordEvidence P first fingerprint normalizer
      = (.error .validationError, (recordEvidence P first fingerprint normalizer).2) := rfl
  have hnot : NotRecorded P normalizer first := by
    intro fingerprint event _ h
    rw [hrefused] at h
    cases h
  obtain ⟨fingerprint, hf, -⟩ := map_eq_ok.mp
    (show (recordIdempotencyFingerprint P first normalizer).map (fun _ => ()) = .ok ()
      by decide +kernel)
  have hrecord := hrefused fingerprint
  generalize (recordEvidence P first fingerprint normalizer).2 = used at hrecord
  obtain ⟨hbatch, hatomic⟩ := (failure_isolated P policy normalizer none [] [second] first).2 []
    [second] rfl rfl
  have hbatchFails : FailsInBatch P policy (existingIdempotencyEntries [])
      ⟨normalizer, none, [], []⟩ [] first ⟨normalizer, none, [], []⟩
      (BatchState.report ⟨used, none, [], []⟩ (failedOutcome first .validationError)) :=
    ⟨rfl, _, importBatchRecord_refused hf rfl hrecord rfl, rfl⟩
  have hatomicFails : FailsInImport P policy (existingIdempotencyEntries [])
      ⟨normalizer, none, [], [], 0, none⟩ [] first ⟨normalizer, none, [], [], 0, none⟩
      (ImportState.report ⟨used, none, [], [], 0, none⟩ (failedOutcome first .validationError)) :=
    ⟨rfl, _, importRecord_refused hf rfl hrecord rfl rfl, rfl⟩
  have hbatchIsolated := hbatch [] _ _ hbatchFails hnot
  have hatomicIsolated :=
    (hatomic _ normalizer _ _ (snapshot_of_verified (verified_nil rfl)) rfl rfl hatomicFails).1 hnot
  exact ⟨used, hbatchIsolated, hatomicIsolated⟩

/-- A record under the key with an event type of 72 characters. -/
def longRecord (key : Text) : EvidenceRecord :=
  { sampleRecord key emptyPayload with eventType := List.replicate 72 (cp 'x') }

/-- The policy captures the long type, so that its event is refused only when it is appended. The
records behind it fail. -/
theorem failed_append_is_not_isolated :
    let P := Platform.checksummed
    let policy := { RedactionPolicy.default P with maxStringLength := 71, captureExemptPaths := [] }
    let one := sampleRecord (sampleText "k1") emptyPayload
    let long := longRecord (sampleText "k2")
    let three := sampleRecord (sampleText "k3") emptyPayload
    let batch := fun ids records =>
      (importEvidenceBatch P policy (sampleNormalizer ids) [] none records).1.map
        (·.map IngestOutcome.status)
    let atomic := fun ids records =>
      (importEvidenceBatchAtomically P policy (sampleNormalizer ids) none records).1.map
        (·.map IngestOutcome.status)
    batch ["a", "b", "c"] [one, long, three] = .ok [.imported, .failed, .failed] ∧
      batch ["a", "c"] [one, three] = .ok [.imported, .imported] ∧
      atomic ["a", "b", "c"] [one, long, three] = .ok [.imported, .failed, .failed] ∧
      atomic ["a", "c"] [one, three] = .ok [.imported, .imported] := by
  decide +kernel

end ActionLineage
