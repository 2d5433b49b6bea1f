import ActionLineage.Journal.Local

/-!
# Valid records and verified journals

`ValidRecord` is what a journal line has to be, said without the verifier; `ValidRecords` is a run
of them, each naming the hash of the one before. The verifier is tied to them in two steps: one
iteration accepts exactly the valid record (`checkRecord_eq_inr`), and the loop walks through a
valid run and decides on what comes after it (`scanRecords_append`).

A content is `Verified` with the events it holds; the snapshot is `ok` exactly then
(`snapshot_ok_iff`).
-/

namespace ActionLineage

open Py

variable {P : Platform}

/-- The line is the canonical record of `e` at `index` after a record with hash `prev`. -/
structure ValidRecord (P : Platform) (index : Nat) (prev : Option Text) (line : Bytes)
    (e : EventEnvelope) : Prop where
  canonical : e.Canonical
  bytes : (serializeEvent P e).map (· ++ [newline]) = .ok line
  sequence : e.causality.sequence = index
  previous : e.integrity.previousEventHash = prev
  hash : ∃ h, e.integrity.eventHash = some h ∧ computeEventHash P e = .ok h

inductive ValidRecords (P : Platform) : Nat → Option Text → List Bytes → List EventEnvelope → Prop
  | nil {index prev} : ValidRecords P index prev [] []
  | cons {index prev line lines e es} (head : ValidRecord P index prev line e)
      (tail : ValidRecords P (index + 1) e.integrity.eventHash lines es) :
      ValidRecords P index prev (line :: lines) (e :: es)

/-- The file is a journal of the events `es`. -/
def Verified (P : Platform) (content : Content) (es : List EventEnvelope) : Prop :=
  ValidRecords P 0 none (splitLines (content.getD [])) es

/-! ## One record -/

theorem rstripNewline_append {b : Bytes} (h : newline ∉ b) : rstripNewline (b ++ [newline]) = b := by
  have hdrop : b.reverse.dropWhile (· == newline) = b.reverse := by
    rw [List.dropWhile_eq_self_iff]
    intro hpos
    have hmem := List.getElem_mem hpos
    have hne : b.reverse[0] ≠ newline := fun he => h (List.mem_reverse.mp (he ▸ hmem))
    simpa using hne
  simp [rstripNewline, hdrop]

/-- The bytes of an event are never empty. -/
theorem serializeEvent_ne_nil {e : EventEnvelope} {b : Bytes} (h : serializeEvent P e = .ok b) :
    b ≠ [] := by
  rintro rfl
  obtain ⟨o, -, -, hb⟩ := serializeEvent_eq_ok.mp h
  obtain ⟨t, ht, -, hb⟩ := dumpBytes_eq_ok.mp hb
  rw [Value.sortKeys_dict] at ht
  obtain ⟨ts, -, rfl⟩ := emit_dict_eq_ok.mp ht
  have hopen : utf8Char (cp '{') = [⟨123, by decide⟩] := by decide
  simp [hopen] at hb

namespace ValidRecord

variable {index : Nat} {prev : Option Text} {line : Bytes} {e : EventEnvelope}

theorem serialized (h : ValidRecord P index prev line e) :
    ∃ b, serializeEvent P e = .ok b ∧ line = b ++ [newline] ∧ parseEvent P b = .ok e := by
  obtain ⟨b, hb, hline⟩ := map_eq_ok.mp h.bytes
  exact ⟨b, hb, hline.symm, h.canonical.parseEvent hb⟩

/-- A line is the record of one event only. -/
theorem event_unique {index' : Nat} {prev' : Option Text} {e' : EventEnvelope}
    (h : ValidRecord P index prev line e) (h' : ValidRecord P index' prev' line e') : e = e' := by
  obtain ⟨b, -, hline, hparse⟩ := h.serialized
  obtain ⟨b', -, hline', hparse'⟩ := h'.serialized
  obtain rfl : b = b' := List.append_cancel_right (hline.symm.trans hline')
  exact Except.ok.inj (hparse.symm.trans hparse')

/-- An event has one record only. -/
theorem line_unique {index' : Nat} {prev' : Option Text} {line' : Bytes}
    (h : ValidRecord P index prev line e) (h' : ValidRecord P index' prev' line' e) :
    line = line' := Except.ok.inj (h.bytes.symm.trans h'.bytes)

theorem newline_form (h : ValidRecord P index prev line e) :
    ∃ b, line = b ++ [newline] ∧ newline ∉ b := by
  obtain ⟨b, hb, hline, -⟩ := h.serialized
  exact ⟨b, hline, newline_notMem_serializeEvent hb⟩

end ValidRecord

/-- The verifier accepts exactly the valid record. -/
theorem checkRecord_eq_inr {index : Nat} {prev : Option Text} {line : Bytes} {e : EventEnvelope} :
    checkRecord P index prev line = .ok (.inr e) ↔ ValidRecord P index prev line e := by
  constructor
  · intro h
    simp only [checkRecord] at h
    split at h
    · cases h
    rename_i hterminated
    split at h
    · cases h
    cases hparse : parseEvent P (rstripNewline line) with
    | error exc =>
      simp only [hparse] at h
      split at h <;> cases h
    | ok event =>
      simp only [hparse] at h
      obtain ⟨b, hb, h⟩ := bind_eq_ok.mp h
      split_ifs at h with hline hseq hprev hnone
      · cases h
      · cases h
      · cases h
      · cases h
      have hline : line = b ++ [newline] := not_not.mp hline
      cases hcompute : computeEventHash P event with
      | error exc =>
        simp only [hcompute] at h
        split at h
        · cases h
        · cases h
        · rename_i heq
          cases heq
      | ok computed =>
        simp only [hcompute] at h
        split_ifs at h with hhash
        · cases h
        obtain rfl : event = e := Sum.inr.inj (Except.ok.inj h)
        have hstrip : rstripNewline line = b := by
          rw [hline, rstripNewline_append (newline_notMem_serializeEvent hb)]
        rw [hstrip] at hparse
        exact ⟨canonical_of_parseEvent hb hparse, map_eq_ok.mpr ⟨b, hb, hline.symm⟩,
          not_not.mp hseq, not_not.mp hprev, computed, not_not.mp hhash, hcompute⟩
  · intro h
    obtain ⟨b, hb, hline, hparse⟩ := h.serialized
    obtain ⟨computed, hhash, hcompute⟩ := h.hash
    have hstrip : rstripNewline line = b := by
      rw [hline, rstripNewline_append (newline_notMem_serializeEvent hb)]
    have hlast : line.getLast? = some newline := by simp [hline]
    have hne : b ≠ [] := serializeEvent_ne_nil hb
    simp only [checkRecord, hlast, ne_eq, not_true_eq_false, if_false, hstrip, hne, hparse, hb,
      bind, Except.bind, ← hline, h.sequence, h.previous, hhash, reduceCtorEq, hcompute]

/-! ## Runs of records -/

/-- The verifier's variables after the events `es`. -/
def ScanState.acceptAll (s : ScanState) (es : List EventEnvelope) : ScanState :=
  es.foldl ScanState.accept s

theorem ScanState.acceptAll_events (s : ScanState) (es : List EventEnvelope) :
    (s.acceptAll es).events = s.events ++ es := by
  induction es generalizing s with
  | nil => simp [acceptAll]
  | cons e es ih =>
    have := ih (s.accept e)
    simp only [acceptAll, List.foldl_cons] at this ⊢
    rw [this]
    simp [accept]

theorem ScanState.acceptAll_issues (s : ScanState) (es : List EventEnvelope) :
    (s.acceptAll es).issues = s.issues := by
  induction es generalizing s with
  | nil => rfl
  | cons e es ih => exact ih (s.accept e)

theorem ScanState.acceptAll_recordsVerified (s : ScanState) (es : List EventEnvelope) :
    (s.acceptAll es).recordsVerified = s.recordsVerified + es.length := by
  induction es generalizing s with
  | nil => rfl
  | cons e es ih =>
    have := ih (s.accept e)
    simp only [acceptAll, List.foldl_cons, List.length_cons] at this ⊢
    rw [this]
    simp only [accept]
    omega

/-- The hash of the last event, or `start`. -/
def terminalHash (start : Option Text) (es : List EventEnvelope) : Option Text :=
  HashChain.terminal (fun e : EventEnvelope => e.integrity.eventHash) start es

theorem ScanState.acceptAll_expectedPreviousHash (s : ScanState) (es : List EventEnvelope) :
    (s.acceptAll es).expectedPreviousHash = terminalHash s.expectedPreviousHash es := by
  induction es generalizing s with
  | nil => rfl
  | cons e es ih => exact ih (s.accept e)

theorem ScanState.acceptAll_lastEventHash (s : ScanState) (es : List EventEnvelope) :
    (s.acceptAll es).lastEventHash = terminalHash s.lastEventHash es := by
  induction es generalizing s with
  | nil => rfl
  | cons e es ih => exact ih (s.accept e)

theorem index_cons (index : Nat) (e : EventEnvelope) (es : List EventEnvelope) :
    index + (e :: es).length = index + 1 + es.length := by
  simp only [List.length_cons]
  omega

namespace ValidRecords

variable {index : Nat} {prev : Option Text} {lines lines' : List Bytes}
  {es es' : List EventEnvelope}

theorem length_eq (h : ValidRecords P index prev lines es) : lines.length = es.length := by
  induction h with
  | nil => rfl
  | cons _ _ ih => simp [ih]

theorem append (h : ValidRecords P index prev lines es)
    (h' : ValidRecords P (index + es.length) (terminalHash prev es) lines' es') :
    ValidRecords P index prev (lines ++ lines') (es ++ es') := by
  induction h with
  | nil => exact h'
  | cons head tail ih =>
    rw [index_cons] at h'
    exact .cons head (ih h')

/-- A run of records at the end of a run of records. -/
theorem of_append (h : ValidRecords P index prev (lines ++ lines') es) :
    ∃ es₁ es₂, es = es₁ ++ es₂ ∧ ValidRecords P index prev lines es₁ ∧
      ValidRecords P (index + es₁.length) (terminalHash prev es₁) lines' es₂ := by
  induction lines generalizing index prev es with
  | nil => exact ⟨[], es, rfl, .nil, h⟩
  | cons line lines ih =>
    cases h with
    | @cons _ _ _ _ e es head tail =>
      obtain ⟨es₁, es₂, rfl, h₁, h₂⟩ := ih tail
      refine ⟨e :: es₁, es₂, rfl, .cons head h₁, ?_⟩
      rw [index_cons]
      exact h₂

theorem linked (h : ValidRecords P index prev lines es) :
    HashChain.Linked (fun e : EventEnvelope => e.integrity.previousEventHash)
      (fun e => e.integrity.eventHash) prev es := by
  induction h with
  | nil => trivial
  | cons head _ ih => exact ⟨head.previous, ih⟩

/-- Every event of the run is canonical and states its own hash. -/
theorem forall_event (h : ValidRecords P index prev lines es) :
    ∀ e ∈ es, e.Canonical ∧ ∃ h, e.integrity.eventHash = some h ∧ computeEventHash P e = .ok h := by
  induction h with
  | nil => simp
  | cons head _ ih =>
    intro e he
    rcases List.mem_cons.mp he with rfl | he
    · exact ⟨head.canonical, head.hash⟩
    · exact ih e he

theorem serializes (h : ValidRecords P index prev lines es) :
    ∀ e ∈ es, ∃ b, serializeEvent P e = .ok b := by
  induction h with
  | nil => simp
  | cons head _ ih =>
    intro e he
    rcases List.mem_cons.mp he with rfl | he
    · obtain ⟨b, hb, -, -⟩ := head.serialized
      exact ⟨b, hb⟩
    · exact ih e he

/-- The lines of a run are determined by its events. -/
theorem lines_unique {index' : Nat} {prev' : Option Text}
    (h : ValidRecords P index prev lines es) (h' : ValidRecords P index' prev' lines' es) :
    lines = lines' := by
  induction h generalizing index' prev' lines' with
  | nil =>
    cases h'
    rfl
  | cons head _ ih =>
    cases h' with
    | cons head' tail' => rw [head.line_unique head', ih tail']

theorem events_unique {index' : Nat} {prev' : Option Text}
    (h : ValidRecords P index prev lines es) (h' : ValidRecords P index' prev' lines es') :
    es = es' := by
  induction h generalizing index' prev' es' with
  | nil =>
    cases h'
    rfl
  | cons head _ ih =>
    cases h' with
    | cons head' tail' =>
      rw [head.event_unique head', ih tail']

/-- Sequences count up from the index of the run. -/
theorem getElem_sequence (h : ValidRecords P index prev lines es) :
    ∀ i (hi : i < es.length), (es.get ⟨i, hi⟩).causality.sequence = index + i := by
  induction h with
  | nil => intro i hi; simp at hi
  | cons head _ ih =>
    intro i hi
    cases i with
    | zero => simpa using head.sequence
    | succ i =>
      have := ih i (by simpa using hi)
      simp only [List.get_eq_getElem, List.getElem_cons_succ] at this ⊢
      omega

/-- The loop walks through a valid run. -/
theorem scanRecords_append (h : ValidRecords P index prev lines es) (rest : List Bytes)
    {s : ScanState} (hs : s.expectedPreviousHash = prev) :
    scanRecords P index (lines ++ rest) s
      = scanRecords P (index + es.length) rest (s.acceptAll es) := by
  induction h generalizing s with
  | nil => rfl
  | @cons index prev line lines e es head tail ih =>
    have hstep := checkRecord_eq_inr.mpr head
    rw [← hs] at hstep
    rw [List.cons_append, scanRecords, hstep]
    simp only [bind, Except.bind]
    rw [ih (s := s.accept e) rfl, index_cons]
    rfl

end ValidRecords

/-- Any list of lines is a valid run followed by nothing, or by a line that is no valid record. -/
theorem exists_validPrefix (index : Nat) (prev : Option Text) (lines : List Bytes) :
    ∃ good es rest, lines = good ++ rest ∧ ValidRecords P index prev good es ∧
      (rest = [] ∨ ∃ bad tail, rest = bad :: tail ∧
        ∀ e, ¬ ValidRecord P (index + es.length) (terminalHash prev es) bad e) := by
  induction lines generalizing index prev with
  | nil => exact ⟨[], [], [], rfl, .nil, .inl rfl⟩
  | cons line lines ih =>
    by_cases hvalid : ∃ e, ValidRecord P index prev line e
    · obtain ⟨e, he⟩ := hvalid
      obtain ⟨good, es, rest, rfl, hgood, hrest⟩ := ih (index + 1) e.integrity.eventHash
      refine ⟨line :: good, e :: es, rest, rfl, .cons he hgood, ?_⟩
      rw [index_cons]
      exact hrest
    · exact ⟨[], [], line :: lines, rfl, .nil, .inr ⟨line, lines, rfl, fun e he => hvalid ⟨e, he⟩⟩⟩

/-! ## Whole files -/

/-- What the snapshot of a verified journal is. -/
def verifiedSnapshot (P : Platform) (content : Content) (es : List EventEnvelope) :
    VerifiedJournalSnapshot where
  events := es
  verification := ⟨true, es.length, terminalHash none es, []⟩
  journalSha256 := content.map P.sha256Digest

theorem snapshot_of_verified {content : Content} {es : List EventEnvelope}
    (h : Verified P content es) :
    verifiedJournalSnapshot P content none .null = .ok (verifiedSnapshot P content es) := by
  have hscan : scanRecords P 0 (splitLines (content.getD [])) .start
      = .ok (ScanState.start.acceptAll es) := by
    have := h.scanRecords_append [] (s := .start) rfl
    rwa [List.append_nil] at this
  simp only [verifiedJournalSnapshot, hscan, hashIssues_null, bind, Except.bind,
    ScanState.acceptAll_events, ScanState.acceptAll_issues, ScanState.acceptAll_recordsVerified,
    ScanState.acceptAll_lastEventHash]
  simp [ScanState.start, verifiedSnapshot]

/-- After a run of valid records the loop stops at the first line that is not one. -/
theorem scanRecords_bad {index : Nat} {bad : Bytes} (tail : List Bytes) {s : ScanState}
    (hbad : ∀ e, ¬ ValidRecord P index s.expectedPreviousHash bad e) :
    (∃ issue, checkRecord P index s.expectedPreviousHash bad = .ok (.inl issue) ∧
      scanRecords P index (bad :: tail) s = .ok { s with issues := s.issues ++ [issue] }) ∨
    (∃ exc, checkRecord P index s.expectedPreviousHash bad = .error exc ∧
      scanRecords P index (bad :: tail) s = .error exc) := by
  cases hcheck : checkRecord P index s.expectedPreviousHash bad with
  | error exc =>
    right
    refine ⟨exc, rfl, ?_⟩
    rw [scanRecords, hcheck]
    rfl
  | ok r =>
    cases r with
    | inl issue =>
      left
      refine ⟨issue, rfl, ?_⟩
      rw [scanRecords, hcheck]
      rfl
    | inr e => exact absurd (checkRecord_eq_inr.mp hcheck) (hbad e)

/-- The snapshot is `ok` exactly for verified journals, and says what they hold. -/
theorem snapshot_ok_iff {content : Content} {s : VerifiedJournalSnapshot} :
    verifiedJournalSnapshot P content none .null = .ok s ∧ s.ok = true ↔
      ∃ es, Verified P content es ∧ s = verifiedSnapshot P content es := by
  constructor
  · rintro ⟨hs, hok⟩
    obtain ⟨good, es, rest, hsplit, hgood, hrest⟩ :=
      exists_validPrefix (P := P) 0 none (splitLines (content.getD []))
    rcases hrest with rfl | ⟨bad, tail, rfl, hbad⟩
    · rw [List.append_nil] at hsplit
      have hv : Verified P content es := by rw [Verified, hsplit]; exact hgood
      rw [snapshot_of_verified hv] at hs
      exact ⟨es, hv, (Except.ok.inj hs).symm⟩
    · -- an invalid line leaves an issue or raises
      exfalso
      have hscan := hgood.scanRecords_append (bad :: tail) (s := .start) rfl
      have hprev : (ScanState.start.acceptAll es).expectedPreviousHash = terminalHash none es :=
        ScanState.acceptAll_expectedPreviousHash _ _
      rw [← hprev] at hbad
      rcases scanRecords_bad tail hbad with ⟨issue, -, hstop⟩ | ⟨exc, -, hstop⟩
      · rw [hstop] at hscan
        rw [verifiedJournalSnapshot, hsplit, hscan] at hs
        simp only [hashIssues_null, bind, Except.bind, Except.ok.injEq] at hs
        subst hs
        simp [VerifiedJournalSnapshot.ok] at hok
      · rw [hstop] at hscan
        rw [verifiedJournalSnapshot, hsplit, hscan] at hs
        cases hs
  · rintro ⟨es, hv, rfl⟩
    exact ⟨snapshot_of_verified hv, rfl⟩

theorem countIssues_eq_nil {n : Nat} {expected : Option IntLike} :
    countIssues n expected = [] ↔ ∀ m, expected = some m → (n : Int) = m.toInt := by
  cases expected with
  | none => simp [countIssues]
  | some m => simp [countIssues]

theorem hashIssues_eq_nil {n : Nat} {last : Option Text} {expected : Value} :
    hashIssues P n last expected = .ok [] ↔
      (expected ≠ .null → hashEquals last expected = true) := by
  unfold hashIssues
  split
  · simp
  · rename_i hnull
    have hne : expected ≠ .null := hnull
    split
    · rename_i heq
      simp [heq]
    · rename_i heq
      cases issueValue P expected <;> simp [bind, Except.bind, hne, heq]

/-- The trusted expectations only add issues to those of the records. -/
theorem snapshot_expected_ok_iff {content : Content} {s : VerifiedJournalSnapshot}
    {count : Option IntLike} {hash : Value} :
    verifiedJournalSnapshot P content count hash = .ok s ∧ s.ok = true ↔
      ∃ es, Verified P content es ∧ s = verifiedSnapshot P content es ∧
        (∀ n, count = some n → (es.length : Int) = n.toInt) ∧
        (hash ≠ .null → hashEquals (terminalHash none es) hash = true) := by
  constructor
  · rintro ⟨hs, hok⟩
    obtain ⟨state, hscan, hs⟩ := bind_eq_ok.mp hs
    obtain ⟨issues, hissues, hs⟩ := bind_eq_ok.mp hs
    obtain rfl := Except.ok.inj hs
    have hnil : state.issues ++ countIssues state.recordsVerified count ++ issues = [] := by
      simpa [VerifiedJournalSnapshot.ok] using hok
    simp only [List.append_eq_nil_iff] at hnil
    obtain ⟨⟨hstate, hcount⟩, rfl⟩ := hnil
    -- without expectations the same records leave no issue
    have hplain : verifiedJournalSnapshot P content none .null = .ok
        { events := state.events
          verification := ⟨true, state.recordsVerified, state.lastEventHash, []⟩
          journalSha256 := content.map P.sha256Digest } := by
      refine bind_eq_ok.mpr ⟨state, hscan, ?_⟩
      simp [bind, Except.bind, hstate]
    obtain ⟨es, hv, heq⟩ := snapshot_ok_iff.mp ⟨hplain, rfl⟩
    simp only [verifiedSnapshot, VerifiedJournalSnapshot.mk.injEq, VerificationResult.mk.injEq,
      true_and, and_true] at heq
    obtain ⟨hevents, hrecords, hlast⟩ := heq
    rw [hrecords, hlast] at hissues
    rw [hrecords] at hcount
    refine ⟨es, hv, ?_, countIssues_eq_nil.mp hcount, hashIssues_eq_nil.mp hissues⟩
    simp [verifiedSnapshot, hstate, hevents, hrecords, hlast, hcount]
  · rintro ⟨es, hv, rfl, hcount, hhash⟩
    refine ⟨?_, rfl⟩
    obtain ⟨state, hscan, hs⟩ := bind_eq_ok.mp (snapshot_of_verified hv)
    simp only [hashIssues_null, bind, Except.bind, countIssues_none, List.append_nil, Except.ok.injEq,
      verifiedSnapshot, VerifiedJournalSnapshot.mk.injEq, VerificationResult.mk.injEq] at hs
    obtain ⟨hevents, ⟨-, hrecords, hlast, hstate⟩, -⟩ := hs
    refine bind_eq_ok.mpr ⟨state, hscan, ?_⟩
    rw [hrecords, hlast]
    refine bind_eq_ok.mpr ⟨[], hashIssues_eq_nil.mpr hhash, ?_⟩
    simp [verifiedSnapshot, hevents, hstate, countIssues_eq_nil.mpr hcount]

/-- A missing file is an empty journal. -/
theorem verified_nil {content : Content} (h : content.getD [] = []) : Verified P content [] := by
  rw [Verified, h]
  exact .nil

theorem Verified.unique {content : Content} {es es' : List EventEnvelope}
    (h : Verified P content es) (h' : Verified P content es') : es = es' :=
  ValidRecords.events_unique h h'

/-- The file is the lines of canonical events. -/
def Written (P : Platform) (content : Content) (es : List EventEnvelope) : Prop :=
  ∃ bodies, content.getD [] = joinLines bodies ∧
    List.Forall₂ (fun e b => e.Canonical ∧ serializeEvent P e = .ok b) es bodies

theorem Verified.written {content : Content} {es : List EventEnvelope} (h : Verified P content es) :
    Written P content es := by
  have hflat := splitLines_flatten (content.getD [])
  rw [Verified] at h
  generalize splitLines (content.getD []) = lines at h hflat
  unfold Written
  rw [← hflat]
  clear hflat
  generalize 0 = index at h
  generalize (none : Option Text) = prev at h
  induction h with
  | nil => exact ⟨[], rfl, .nil⟩
  | cons head _ ih =>
    obtain ⟨bodies, hbytes, hbodies⟩ := ih
    obtain ⟨b, hb, rfl, -⟩ := head.serialized
    refine ⟨b :: bodies, ?_, .cons ⟨head.canonical, hb⟩ hbodies⟩
    rw [List.flatten_cons, hbytes]
    simp [joinLines]

/-- Reading the lines gives the events back. -/
theorem Written.iterEvents {content : Content} {es : List EventEnvelope} (h : Written P content es) :
    iterEvents P content = .ok es := by
  obtain ⟨bodies, hbytes, hbodies⟩ := h
  have hline : ∀ b ∈ bodies, newline ∉ b ∧ b ≠ [] := by
    intro b hb
    obtain ⟨e, -, -, hser⟩ := exists_of_forall₂ hbodies hb
    exact ⟨newline_notMem_serializeEvent hser, serializeEvent_ne_nil hser⟩
  have hsplit : splitLines (content.getD []) = bodies.map (· ++ [newline]) := by
    have := splitLines_joinLines_append bodies [] fun b hb => (hline b hb).1
    simpa [hbytes, splitLines] using this
  have hstrip : (splitLines (content.getD [])).map rstripNewline = bodies := by
    rw [hsplit, List.map_map]
    calc bodies.map (rstripNewline ∘ (· ++ [newline]))
        = bodies.map id := List.map_congr_left fun b hb => rstripNewline_append (hline b hb).1
      _ = bodies := List.map_id bodies
  have hfilter : bodies.filter (fun line => line ≠ []) = bodies :=
    List.filter_eq_self.mpr fun b hb => by simpa using (hline b hb).2
  unfold ActionLineage.iterEvents
  rw [hstrip]
  dsimp only
  rw [hfilter, mapM_eq_ok]
  exact hbodies.flip.imp fun b e h => h.1.parseEvent h.2

/-- A verified file is its records, each ended by a newline. -/
theorem Verified.bytes {content : Content} {es : List EventEnvelope} (h : Verified P content es) :
    ∃ bodies : List Bytes, content.getD [] = joinLines bodies ∧ ∀ b ∈ bodies, newline ∉ b := by
  obtain ⟨bodies, hbytes, hbodies⟩ := h.written
  refine ⟨bodies, hbytes, fun b hb => ?_⟩
  obtain ⟨e, -, -, hser⟩ := exists_of_forall₂ hbodies hb
  exact newline_notMem_serializeEvent hser

/-- Appending to a verified journal adds one line. -/
theorem Verified.splitLines_appendLine {content : Content} {es : List EventEnvelope}
    (h : Verified P content es) {b : Bytes} (hnb : newline ∉ b) :
    splitLines ((ActionLineage.appendLine content b).getD [])
      = splitLines (content.getD []) ++ [b ++ [newline]] := by
  obtain ⟨bodies, hbytes, hnl⟩ := h.bytes
  have hold := splitLines_joinLines_append bodies [] hnl
  have hnew := splitLines_joinLines_append bodies (b ++ [newline]) hnl
  have hline : splitLines (b ++ [newline]) = [b ++ [newline]] := by
    have := splitLines_line b [] hnb
    simpa [splitLines] using this
  simp only [ActionLineage.appendLine, Option.getD_some, hbytes, List.append_assoc, hnew, hline]
  simp only [List.append_nil] at hold
  rw [hold]
  simp [splitLines]

/-- Appending a valid record to a verified journal. -/
theorem Verified.appendLine {content : Content} {es : List EventEnvelope}
    (h : Verified P content es) {e : EventEnvelope} {b : Bytes}
    (hb : serializeEvent P e = .ok b)
    (he : ValidRecord P es.length (terminalHash none es) (b ++ [newline]) e) :
    Verified P (appendLine content b) (es ++ [e]) := by
  rw [Verified, h.splitLines_appendLine (newline_notMem_serializeEvent hb)]
  refine ValidRecords.append h (.cons ?_ .nil)
  simpa using he

/-- What a verified journal with one more line holds: a record of that line. -/
theorem Verified.of_appendLine {content : Content} {es es' : List EventEnvelope}
    (h : Verified P content es) {b : Bytes} (hnb : newline ∉ b)
    (h' : Verified P (ActionLineage.appendLine content b) es') :
    ∃ e, es' = es ++ [e] ∧
      ValidRecord P es.length (terminalHash none es) (b ++ [newline]) e := by
  rw [Verified, h.splitLines_appendLine hnb] at h'
  obtain ⟨es₁, es₂, rfl, h₁, h₂⟩ := h'.of_append
  obtain rfl := ValidRecords.events_unique h₁ h
  cases h₂ with
  | cons head tail =>
    cases tail
    rw [Nat.zero_add] at head
    exact ⟨_, rfl, head⟩

end ActionLineage
