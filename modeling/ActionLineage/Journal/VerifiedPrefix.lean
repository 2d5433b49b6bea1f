import ActionLineage.Journal.Anchors
import ActionLineage.Journal.Append
import ActionLineage.Journal.Verifier

/-!
# Exporting the verified prefix

`export_verified_prefix` writes the events of a snapshot to another file, one canonical line each.
Whatever the source holds, as long as the verifier returns on it, the output is the longest run of
whole source lines that verifies (`LongestVerified`), although the lines are written anew and not
copied: a line is only verified if it is the canonical line of its event. Of a journal that was cut
off anywhere it keeps the lines that are complete (`CompleteLines`).
-/

namespace ActionLineage

open Py

structure VerifiedPrefixExport where
  sourcePath : Str
  outputPath : Str
  recordsExported : Nat
  verification : VerificationResult

section Export

variable (P : Platform)

/-- The loop that writes the events behind what the file holds. -/
def writeRecords : List EventEnvelope → Bytes → Except PyError Unit × Bytes
  | [], written => (.ok (), written)
  | event :: events, written =>
    match serializeEvent P event with
    | .error exc => (.error exc, written)
    | .ok line => writeRecords events (written ++ line ++ [newline])

/-- `export_verified_prefix` of the two paths, with what their files hold: what it returns or
raises, and the output file it leaves. Opening the output empties it. -/
def exportVerifiedPrefix (sameResolvedPath : Str → Str → Bool) (journalPath outputPath : Str)
    (journal output : Content) (expectedRecordCount : Option IntLike)
    (expectedLastEventHash : Value) : Except PyError VerifiedPrefixExport × Content :=
  if sameResolvedPath journalPath outputPath then
    (.error (.journalAnchorError "verified-prefix output path must differ from source journal"),
      output)
  else
    match verifiedJournalSnapshot P journal expectedRecordCount expectedLastEventHash with
    | .error exc => (.error exc, output)
    | .ok snapshot =>
      let (result, written) := writeRecords P snapshot.events []
      (result.map fun _ =>
        { sourcePath := journalPath, outputPath, recordsExported := snapshot.recordCount
          verification := snapshot.verification }, some written)

end Export

variable {P : Platform}

/-- The verifier accepts the bytes as a journal. -/
def Verifies (P : Platform) (bytes : Bytes) : Prop :=
  ∃ v, verifyJournal P (some bytes) none .null = .ok v ∧ v.ok = true

instance (P : Platform) (bytes : Bytes) : Decidable (Verifies P bytes) :=
  decidable_of_iff ((verifyJournal P (some bytes) none .null).toOption.any (·.ok) = true) (by
    unfold Verifies
    cases verifyJournal P (some bytes) none .null <;> simp [Except.toOption])

/-- The output is the longest run of whole lines at the start of the source that verifies. -/
structure LongestVerified (P : Platform) (source output : Bytes) : Prop where
  whole : ∃ k, output = ((splitLines source).take k).flatten ∧
    ∀ line ∈ (splitLines source).take k, line.getLast? = some newline
  verifies : Verifies P output
  longest : ∀ k, (∀ line ∈ (splitLines source).take k, line.getLast? = some newline) →
    Verifies P ((splitLines source).take k).flatten →
      ((splitLines source).take k).flatten.length ≤ output.length

/-- The output is the lines that are complete in the first `k` bytes. -/
def CompleteLines (source : Bytes) (k : Nat) (output : Bytes) : Prop :=
  ∃ n, output = ((splitLines source).take n).flatten ∧ output.length ≤ k ∧
    ∀ m, n < m → m ≤ (splitLines source).length →
      k < ((splitLines source).take m).flatten.length

/-! ## What is written -/

theorem writeRecords_eq_ok {events : List EventEnvelope} {index : Nat} {prev : Option Text}
    {lines : List Bytes} (h : ValidRecords P index prev lines events) (written : Bytes) :
    writeRecords P events written = (.ok (), written ++ lines.flatten) := by
  induction h generalizing written with
  | nil => simp [writeRecords]
  | cons head _ ih =>
    obtain ⟨b, hb, rfl, -⟩ := head.serialized
    rw [writeRecords, hb]
    simp only
    rw [ih]
    simp

theorem ValidRecords.terminated {index : Nat} {prev : Option Text} {lines : List Bytes}
    {es : List EventEnvelope} (h : ValidRecords P index prev lines es) :
    ∀ line ∈ lines, line.getLast? = some newline := by
  induction h with
  | nil => simp
  | cons head _ ih =>
    intro line hline
    rcases List.mem_cons.mp hline with rfl | hline
    · obtain ⟨b, rfl, -⟩ := head.newline_form
      simp
    · exact ih line hline

theorem verifies_iff {bytes : Bytes} :
    Verifies P bytes ↔ ∃ es, ValidRecords P 0 none (splitLines bytes) es := by
  unfold Verifies
  rw [verifyJournal_ok_iff]
  simp [Verified]

/-- The records of the lines that the output consists of. -/
theorem verified_of_lines {lines : List Bytes} {es : List EventEnvelope} {source : Bytes} {k : Nat}
    (h : ValidRecords P 0 none lines es) (hlines : lines = (splitLines source).take k) :
    Verified P (some lines.flatten) es := by
  rw [Verified, Option.getD_some, hlines, splitLines_take, ← hlines]
  exact h

/-- The lines the snapshot stopped behind are the longest run that verifies. -/
theorem longestVerified {source : Bytes} {good rest : List Bytes} {es : List EventEnvelope}
    (hsplit : splitLines source = good ++ rest) (hgood : ValidRecords P 0 none good es)
    (hbad : ∀ bad tail, rest = bad :: tail →
      ∀ e, ¬ ValidRecord P es.length (terminalHash none es) bad e) :
    LongestVerified P source good.flatten := by
  have htake : good = (splitLines source).take good.length := by
    rw [hsplit, List.take_left]
  refine ⟨⟨good.length, congrArg List.flatten htake, htake ▸ hgood.terminated⟩, ?_, ?_⟩
  · exact verifies_iff.mpr ⟨es, verified_of_lines hgood htake⟩
  · intro k _ hk
    obtain ⟨es', hes'⟩ := verifies_iff.mp hk
    rw [splitLines_take] at hes'
    by_cases hle : k ≤ good.length
    · rw [hsplit, List.take_append_of_le_length hle]
      exact (List.take_sublist k good).flatten.length_le
    · obtain ⟨j, hj⟩ : ∃ j, k = good.length + (j + 1) := ⟨k - good.length - 1, by omega⟩
      rw [hsplit, hj, List.take_length_add_append] at hes' ⊢
      cases hrest : rest with
      | nil => simp
      | cons bad tail =>
        -- a longer run goes through the line that is no record
        rw [hrest, List.take_succ_cons] at hes'
        obtain ⟨es₁, es₂, -, hfirst, hsecond⟩ := hes'.of_append
        obtain rfl := hgood.events_unique hfirst
        cases hsecond with
        | cons head _ =>
          rw [Nat.zero_add] at head
          exact absurd head (hbad bad tail hrest _)

/-! ## The export -/

/-- When the verifier returns, so does the export to another file, and the output is the longest
run of whole source lines that verifies. -/
theorem export_of_snapshot {same : Str → Str → Bool} {journalPath outputPath : Str}
    (hpaths : same journalPath outputPath = false) {journal : Content} (output : Content)
    {count : Option IntLike} {hash : Value} {v : VerificationResult}
    (hv : verifyJournal P journal count hash = .ok v) :
    ∃ r out, exportVerifiedPrefix P same journalPath outputPath journal output count hash
        = (.ok r, some out) ∧
      r.sourcePath = journalPath ∧ r.outputPath = outputPath ∧ r.verification = v ∧
      LongestVerified P (journal.getD []) out ∧
      ∃ w, verifyJournal P (some out) none .null = .ok w ∧ w.ok = true ∧
        w.recordsVerified = r.recordsExported := by
  obtain ⟨snapshot, hs, hv⟩ := bind_eq_ok.mp hv
  obtain rfl := Except.ok.inj hv
  obtain ⟨state, hscan, hsnapshot⟩ := bind_eq_ok.mp hs
  obtain ⟨issues, -, hsnapshot⟩ := bind_eq_ok.mp hsnapshot
  obtain ⟨good, rest, hsplit, hgood, hcount, -, hrest⟩ := scanRecords_stops hscan
  have hevents : snapshot.events = state.events := by rw [← Except.ok.inj hsnapshot]
  have hrecords : snapshot.recordCount = state.events.length := by
    rw [← hcount, ← Except.ok.inj hsnapshot]
    rfl
  have hwrite := writeRecords_eq_ok hgood []
  rw [← hevents, List.nil_append] at hwrite
  have hlongest := longestVerified hsplit hgood fun bad tail h => (hrest bad tail h).1
  have hverified : Verified P (some good.flatten) state.events :=
    @verified_of_lines _ _ _ (journal.getD []) good.length hgood
      (by rw [hsplit, List.take_left])
  have hw : verifyJournal P (some good.flatten) none .null
      = .ok (verifiedSnapshot P (some good.flatten) state.events).verification :=
    bind_eq_ok.mpr ⟨_, snapshot_of_verified hverified, rfl⟩
  refine ⟨⟨journalPath, outputPath, snapshot.recordCount, snapshot.verification⟩, good.flatten, ?_,
    rfl, rfl, rfl, hlongest, _, hw, rfl, hrecords.symm⟩
  unfold exportVerifiedPrefix
  rw [hpaths, hs]
  simp [hwrite, Except.map]

/-! ## Truncations -/

theorem ValidRecords.judged {index : Nat} {prev : Option Text} {lines : List Bytes}
    {es : List EventEnvelope} (h : ValidRecords P index prev lines es) :
    ∀ line ∈ lines, Judged P line := by
  induction h with
  | nil => simp
  | cons head _ ih =>
    intro line hline
    rcases List.mem_cons.mp hline with rfl | hline
    · exact checkRecord_isOk_iff.mp ⟨_, checkRecord_eq_inr.mpr head⟩
    · exact ih line hline

/-- Of valid lines and a last one without its end, the valid lines are the longest run. -/
theorem LongestVerified.eq_of_unterminated {source output : Bytes} {lines : List Bytes}
    {es : List EventEnvelope} {partialLine : Bytes} (h : LongestVerified P source output)
    (hsource : splitLines source = lines ++ splitLines partialLine) (hcutLine : newline ∉ partialLine)
    (hlines : ValidRecords P 0 none lines es) : output = lines.flatten := by
  have htake : lines = (splitLines source).take lines.length := by
    rw [hsource, List.take_left]
  have hverifies : Verifies P lines.flatten := verifies_iff.mpr ⟨es, verified_of_lines hlines htake⟩
  have hlong := h.longest lines.length (by rw [← htake]; exact hlines.terminated)
    (by rw [← htake]; exact hverifies)
  rw [← htake] at hlong
  obtain ⟨m, rfl, hterminated⟩ := h.whole
  have hcut : (splitLines source).take m = lines.take m := by
    rw [splitLines_of_notMem hcutLine] at hsource
    by_cases hle : m ≤ lines.length
    · rw [hsource, List.take_append_of_le_length hle]
    · by_cases hnil : partialLine = []
      · simp [hsource, hnil]
      · -- the last line would be written without its end
        obtain ⟨j, rfl⟩ : ∃ j, m = lines.length + (j + 1) := ⟨m - lines.length - 1, by omega⟩
        rw [if_neg hnil] at hsource
        rw [hsource, List.take_length_add_append] at hterminated
        have hlast := hterminated partialLine (by simp)
        exact absurd (List.mem_of_getLast? hlast) hcutLine
  rw [hcut] at hlong ⊢
  have hflat : (lines.take m).flatten ++ (lines.drop m).flatten = lines.flatten := by
    rw [← List.flatten_append, List.take_append_drop]
  have hnil : (lines.drop m).flatten = [] := by
    have := congrArg List.length hflat
    rw [List.length_append] at this
    exact List.length_eq_zero_iff.mp (by omega)
  rw [← hflat, hnil, List.append_nil]

theorem export_of_truncation {same : Str → Str → Bool} {journalPath outputPath : Str}
    (hpaths : same journalPath outputPath = false) {journal : Bytes} (hok : Verifies P journal)
    (k : Nat) (output : Content) (count : Option Int) (hash : Option Str) :
    ∃ r out, exportVerifiedPrefix P same journalPath outputPath (some (journal.take k)) output
        (count.map .int) (hash.elim .null .str) = (.ok r, some out) ∧
      CompleteLines journal k out := by
  obtain ⟨es, hes⟩ := verifies_iff.mp hok
  have hverified : Verified P (some journal) es := hes
  obtain ⟨bodies, hbytes, hbodies⟩ := hverified.bytes
  rw [Option.getD_some] at hbytes
  subst hbytes
  obtain ⟨n, partialLine, htake, hcutLine, hlong⟩ := exists_take_joinLines bodies hbodies k
  have hall : splitLines (joinLines bodies) = bodies.map (· ++ [newline]) := by
    simpa [splitLines] using splitLines_joinLines_append bodies [] hbodies
  have hcut : splitLines ((joinLines bodies).take k)
      = (bodies.take n).map (· ++ [newline]) ++ splitLines partialLine := by
    rw [htake]
    exact splitLines_joinLines_append _ _ fun b hb => hbodies b (List.mem_of_mem_take hb)
  obtain ⟨es₁, hvalid⟩ : ∃ es₁, ValidRecords P 0 none ((bodies.take n).map (· ++ [newline])) es₁ := by
    rw [hall, ← List.take_append_drop n bodies, List.map_append] at hes
    obtain ⟨es₁, -, -, hfirst, -⟩ := hes.of_append
    exact ⟨es₁, hfirst⟩
  -- no line makes the verifier raise
  obtain ⟨state, hscan⟩ : ∃ state, scanRecords P 0 (splitLines ((joinLines bodies).take k)) .start
      = .ok state := by
    refine scanRecords_isOk fun good es bad tail heq _ _ => ?_
    have hmem : bad ∈ splitLines ((joinLines bodies).take k) := by rw [heq]; simp
    rw [hcut, splitLines_of_notMem hcutLine] at hmem
    rcases List.mem_append.mp hmem with hmem | hmem
    · exact hvalid.judged bad hmem
    · intro hlast
      have hbad : bad = partialLine := by
        split at hmem
        · cases hmem
        · exact List.mem_singleton.mp hmem
      exact absurd (List.mem_of_getLast? (hbad ▸ hlast)) hcutLine
  obtain ⟨snapshot, -, hsnapshot, -⟩ :=
    @snapshot_of_scan _ (some ((joinLines bodies).take k)) _ hscan count hash
  obtain ⟨r, out, hexport, -, -, -, hlongest, -⟩ :=
    export_of_snapshot hpaths output (bind_eq_ok.mpr ⟨snapshot, hsnapshot, rfl⟩)
  refine ⟨r, out, hexport, n, ?_⟩
  have hout : out = joinLines (bodies.take n) :=
    hlongest.eq_of_unterminated hcut hcutLine hvalid
  have hlines : ∀ m, ((splitLines (joinLines bodies)).take m).flatten = joinLines (bodies.take m) := by
    intro m
    rw [hall, ← List.map_take]
    rfl
  refine ⟨hout.trans (hlines n).symm, ?_, fun m hm hle => ?_⟩
  · have := congrArg List.length htake
    rw [List.length_append, List.length_take] at this
    rw [hout]
    omega
  · rw [hlines]
    exact hlong m hm (by simpa [hall] using hle)

/-- **Verified-prefix export.** The export writes the longest run of whole source lines that
verifies, and counts its records; of a journal that verifies, cut off anywhere, it recovers the
lines that are complete. -/
theorem verified_prefix_export (P : Platform) (same : Str → Str → Bool)
    (journalPath outputPath : Str) (hpaths : same journalPath outputPath = false)
    (output : Content) :
    (∀ (journal : Content) (count : Option IntLike) (hash : Value) (v : VerificationResult),
      verifyJournal P journal count hash = .ok v →
      ∃ r out, exportVerifiedPrefix P same journalPath outputPath journal output count hash
          = (.ok r, some out) ∧
        r.sourcePath = journalPath ∧ r.outputPath = outputPath ∧ r.verification = v ∧
        LongestVerified P (journal.getD []) out ∧
        ∃ w, verifyJournal P (some out) none .null = .ok w ∧ w.ok = true ∧
          w.recordsVerified = r.recordsExported) ∧
    ∀ journal, Verifies P journal → ∀ (k : Nat) (count : Option Int) (hash : Option Str),
      ∃ r out, exportVerifiedPrefix P same journalPath outputPath (some (journal.take k)) output
          (count.map .int) (hash.elim .null .str) = (.ok r, some out) ∧
        CompleteLines journal k out :=
  ⟨fun _ _ _ _ hv => export_of_snapshot hpaths output hv,
    fun _ hok k count hash => export_of_truncation hpaths hok k output count hash⟩

/-- A journal of two events. -/
def twoLines : Bytes :=
  let P := Platform.checksummed
  let first := (appendEvent P (.default P) none firstEvent).2
  ((appendEvent P (.default P) first secondEvent).2).getD []

theorem verified_prefix_export_sample :
    ∃ r out, exportVerifiedPrefix .checksummed (fun a b => a == b) (lit "journal") (lit "prefix")
        (some (twoLines.take 1000)) none none .null = (.ok r, some out) ∧
      CompleteLines twoLines 1000 out :=
  (verified_prefix_export .checksummed (fun a b => a == b) (lit "journal") (lit "prefix")
    (by decide) none).2 twoLines (by decide +kernel) 1000 none none

end ActionLineage
