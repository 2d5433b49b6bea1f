import ActionLineage.Domain.RedactedEvent
import ActionLineage.Journal.Records
import ActionLineage.Reference

/-!
# Appending to a verified journal

The writer puts the previous hash into the event before the policy rewrites it, hashes the
rewritten event, and stores the original previous hash. Writer and verifier therefore agree exactly
when the policy leaves the previous hash alone (`record_iff_keepsHash`).

The default patterns leave every digest alone (`keepsHash_default`): each of them only matches text
with a character that no digest has. Hence `appendEvent` under the default policy keeps a journal
verified, and so does any run of appends (`runAppends_verified`).
-/

namespace ActionLineage

open Py

variable {P : Platform} {policy : RedactionPolicy}

/-! ## One append -/

/-- What a successful append did. -/
theorem appendEvent_eq_ok {content content' : Content} {es : List EventEnvelope}
    (hv : Verified P content es) {e r : EventEnvelope} :
    appendEvent P policy content e = (.ok r, content') ↔
      e.causality.sequence = es.length ∧
      ∃ line, prepareEventForAppend P policy e (terminalHash none es) = .ok (r, line) ∧
        content' = appendLine content line := by
  have hsnap := snapshot_of_verified hv
  simp only [appendEvent, hsnap, bind, Except.bind, verifiedSnapshot, VerifiedJournalSnapshot.ok,
    VerifiedJournalSnapshot.recordCount, VerifiedJournalSnapshot.terminalHash, require, if_true]
  by_cases hseq : e.causality.sequence = es.length
  · simp only [hseq, decide_true, if_true, true_and]
    cases prepareEventForAppend P policy e (terminalHash none es) with
    | error exc => simp
    | ok p =>
      obtain ⟨r', line⟩ := p
      simp only [Prod.mk.injEq, Except.ok.injEq]
      constructor
      · rintro ⟨rfl, rfl⟩
        exact ⟨line, ⟨rfl, rfl⟩, rfl⟩
      · rintro ⟨line', ⟨rfl, rfl⟩, rfl⟩
        exact ⟨rfl, rfl⟩
  · simp [hseq]

/-- A refused append leaves the journal alone. -/
theorem appendEvent_error {content content' : Content} {e : EventEnvelope} {exc : PyError}
    (h : appendEvent P policy content e = (.error exc, content')) : content' = content := by
  unfold appendEvent at h
  simp only at h
  split at h
  · cases h
  · exact (Prod.mk.inj h).2.symm

/-- The policy leaves a previous hash as it is. -/
def KeepsHash (policy : RedactionPolicy) (prev : Option Text) : Prop :=
  ∀ h, prev = some h → redactText policy h.val = .ok h.val

theorem keepsHash_iff_of_redactsText {prev prev' : Option Text}
    (h : RedactsText policy prev prev') : KeepsHash policy prev ↔ prev' = prev := by
  cases prev with
  | none =>
    cases prev' with
    | none => simp [KeepsHash]
    | some t => exact h.elim
  | some s =>
    cases prev' with
    | none => exact h.elim
    | some t =>
      have ht : redactText policy s.val = .ok t.val := h
      simp only [KeepsHash, Option.some.injEq, forall_eq', ht, Except.ok.injEq]
      exact Subtype.ext_iff.symm

/-- What a prepared event is: the redacted event with its hash and the given previous hash. -/
theorem prepared_cases {e r : EventEnvelope} {prev : Option Text} {line : Bytes}
    (h : prepareEventForAppend P policy e prev = .ok (r, line)) :
    ∃ redacted hash, RedactedFrom P policy (eventWithIntegrity e prev none) redacted ∧
      redacted.integrity.eventHash = none ∧ RedactsText policy prev
        redacted.integrity.previousEventHash ∧
      computeEventHash P redacted = .ok hash ∧ r = eventWithIntegrity redacted prev (some hash) ∧
      serializeEvent P r = .ok line := by
  obtain ⟨-, b, redacted, hash, hb, hredacted, hhash, hr, hline⟩ := prepareEventForAppend_eq_ok.mp h
  have hfrom := redactedFrom_of_persisted hb hredacted
  refine ⟨redacted, hash, hfrom, ?_, hfrom.previousEventHash, hhash, hr, hline⟩
  have hnone := hfrom.eventHash
  cases hself : redacted.integrity.eventHash with
  | none => rfl
  | some t =>
    rw [hself] at hnone
    exact hnone.elim

/-- The line a policy wrote is a valid record if the policy left the previous hash alone. -/
theorem record_of_keepsHash {e r : EventEnvelope} {prev : Option Text} {line : Bytes}
    (h : prepareEventForAppend P policy e prev = .ok (r, line)) (hk : KeepsHash policy prev) :
    ValidRecord P e.causality.sequence prev (line ++ [newline]) r := by
  obtain ⟨redacted, hash, hfrom, -, hprev, hhash, rfl, hline⟩ := prepared_cases h
  have hsame := (keepsHash_iff_of_redactsText hprev).mp hk
  refine
    { canonical := hfrom.canonical.withIntegrity _ _
      bytes := by rw [hline]; rfl
      sequence := hfrom.sequence
      previous := rfl
      hash := ⟨hash, rfl, ?_⟩ }
  -- with the previous hash unchanged, both hashes are taken of the same event
  rw [computeEventHash_eq_ok] at hhash ⊢
  rw [hsame] at hhash
  exact hhash

/-- When digests do not collide, the returned event states its own hash only in that case. -/
theorem keepsHash_of_computeEventHash (hinj : Function.Injective P.sha256Hex)
    {e r : EventEnvelope} {prev : Option Text} {line : Bytes}
    (h : prepareEventForAppend P policy e prev = .ok (r, line)) {hash : Text}
    (hself : r.integrity.eventHash = some hash) (hr : computeEventHash P r = .ok hash) :
    KeepsHash policy prev := by
  obtain ⟨redacted, hash', hfrom, hnone, hprev, hhash, rfl, -⟩ := prepared_cases h
  obtain rfl : hash' = hash := Option.some.inj hself
  -- hashing ignores the hash the event states
  have hr' : computeEventHash P (eventWithIntegrity redacted prev none) = .ok hash' := by
    rw [computeEventHash_eq_ok] at hr ⊢
    exact hr
  have heq := eq_of_computeEventHash hinj hfrom.canonical
    (hfrom.canonical.withIntegrity prev none) hhash hr' hnone
  refine (keepsHash_iff_of_redactsText hprev).mpr ?_
  calc redacted.integrity.previousEventHash
      = (eventWithIntegrity redacted prev none).integrity.previousEventHash := by rw [← heq]
    _ = prev := rfl

/-- A prepared record in its place, under a policy that leaves the terminal hash alone. -/
theorem Verified.appendPrepared {content : Content} {es : List EventEnvelope}
    (hv : Verified P content es) {e r : EventEnvelope} {line : Bytes}
    (hseq : e.causality.sequence = es.length)
    (hprep : prepareEventForAppend P policy e (ActionLineage.terminalHash none es) = .ok (r, line))
    (hk : KeepsHash policy (ActionLineage.terminalHash none es)) :
    Verified P (ActionLineage.appendLine content line) (es ++ [r]) := by
  have hrecord := record_of_keepsHash hprep hk
  obtain ⟨-, -, -, -, -, -, -, hline⟩ := prepared_cases hprep
  rw [hseq] at hrecord
  exact hv.appendLine hline hrecord

/-- A successful append under a policy that leaves the terminal hash alone. -/
theorem Verified.append {content content' : Content} {es : List EventEnvelope}
    (hv : Verified P content es) {e r : EventEnvelope}
    (h : appendEvent P policy content e = (.ok r, content'))
    (hk : KeepsHash policy (ActionLineage.terminalHash none es)) : Verified P content' (es ++ [r]) := by
  obtain ⟨hseq, line, hprep, rfl⟩ := (appendEvent_eq_ok hv).mp h
  exact hv.appendPrepared hseq hprep hk

/-- When digests do not collide, only such a policy leaves a verified journal verified. -/
theorem Verified.keepsHash_of_append (hinj : Function.Injective P.sha256Hex)
    {content content' : Content} {es es' : List EventEnvelope} (hv : Verified P content es)
    {e r : EventEnvelope} (h : appendEvent P policy content e = (.ok r, content'))
    (hv' : Verified P content' es') : KeepsHash policy (ActionLineage.terminalHash none es) := by
  obtain ⟨-, line, hprep, rfl⟩ := (appendEvent_eq_ok hv).mp h
  obtain ⟨redacted, hash, hfrom, -, -, -, hr, hline⟩ := prepared_cases hprep
  have hcanonical : r.Canonical := by
    rw [hr]
    exact hfrom.canonical.withIntegrity _ _
  obtain ⟨e', -, hrecord⟩ := hv.of_appendLine (newline_notMem_serializeEvent hline) hv'
  -- the record read back is the event that was returned
  obtain ⟨b, -, hbytes, hparse⟩ := hrecord.serialized
  obtain rfl : line = b := List.append_cancel_right hbytes
  obtain rfl : e' = r := Except.ok.inj (hparse.symm.trans (hcanonical.parseEvent hline))
  obtain ⟨hash', hself, hcompute⟩ := hrecord.hash
  exact keepsHash_of_computeEventHash hinj hprep hself hcompute

/-- Appending succeeds on verified journals only. -/
theorem verified_of_appendEvent {content content' : Content} {e r : EventEnvelope}
    (h : appendEvent P policy content e = (.ok r, content')) : ∃ es, Verified P content es := by
  unfold appendEvent at h
  cases hs : verifiedJournalSnapshot P content none .null with
  | error exc =>
    rw [hs] at h
    cases h
  | ok s =>
    cases hok : s.ok with
    | true =>
      obtain ⟨es, hv, -⟩ := snapshot_ok_iff.mp ⟨hs, hok⟩
      exact ⟨es, hv⟩
    | false =>
      simp only [hs, bind, Except.bind, hok, require] at h
      cases h

/-! ## The default policy -/

/-- The characters of a digest text. -/
def digestAlphabet : Str := lit "sha256:0123456789abcdef"

theorem mem_digestAlphabet {b : Bytes} : ∀ c ∈ P.sha256Digest b, c ∈ digestAlphabet := by
  have hhex : ∀ c : CodePoint, isHexChar c = true → c ∈ digestAlphabet := by
    rintro ⟨n, hn⟩ hc
    have hval : (48 ≤ n ∧ n ≤ 57) ∨ (97 ≤ n ∧ n ≤ 102) := by
      simpa [isHexChar, isDigit] using hc
    rcases hval with ⟨hlo, hhi⟩ | ⟨hlo, hhi⟩ <;> interval_cases n <;> decide +revert
  intro c hc
  rcases List.mem_append.mp hc with hc | hc
  · exact List.mem_append_left (lit "0123456789abcdef") hc
  · exact hhex c (P.sha256Hex_hex b c hc)

/-- Every default pattern needs a character that no digest has. -/
theorem needs_defaultRules :
    (DEFAULT_RULES P).all (fun rule => rule.1.needs digestAlphabet) = true := rfl

theorem redactText_eq_self {policy : RedactionPolicy} {s : Str}
    (h : ∀ p ∈ policy.patterns, p.apply s = .ok s) : redactText policy s = .ok s := by
  unfold redactText
  generalize policy.patterns = patterns at h
  induction patterns with
  | nil => rfl
  | cons p ps ih =>
    rw [List.foldlM_cons, h p (by simp)]
    exact ih fun q hq => h q (by simp [hq])

theorem redactText_sha256Digest (b : Bytes) :
    redactText (.default P) (P.sha256Digest b) = .ok (P.sha256Digest b) := by
  refine redactText_eq_self fun p hp => ?_
  obtain ⟨rule, hrule, rfl⟩ := List.mem_map.mp hp
  have hneeds := List.all_eq_true.mp (needs_defaultRules (P := P)) rule hrule
  exact congrArg Except.ok (Re.sub_of_needs hneeds rule.2 mem_digestAlphabet)

def wordAlphabet : Str := lit "abcdefghijklmnopqrstuvwxyz._"

/-- Every default pattern needs a character that such a word does not have. -/
theorem needs_wordAlphabet :
    (DEFAULT_RULES P).all (fun rule => rule.1.needs wordAlphabet) = true := rfl

theorem redactText_word {s : Str} (h : s.all (fun c => wordAlphabet.contains c) = true) :
    redactText (.default P) s = .ok s := by
  have hletters : ∀ c ∈ s, c ∈ wordAlphabet := by
    simpa using h
  refine redactText_eq_self fun p hp => ?_
  obtain ⟨rule, hrule, rfl⟩ := List.mem_map.mp hp
  have hneeds := List.all_eq_true.mp (needs_wordAlphabet (P := P)) rule hrule
  exact congrArg Except.ok (Re.sub_of_needs hneeds rule.2 hletters)

/-- The terminal hash of a verified journal is a digest. -/
theorem Verified.terminalHash_digest {content : Content} {es : List EventEnvelope}
    (hv : Verified P content es) {h : Text} (hh : ActionLineage.terminalHash none es = some h) :
    ∃ b, h.val = P.sha256Digest b := by
  rw [ActionLineage.terminalHash, HashChain.terminal_none] at hh
  obtain ⟨e, he, hh⟩ := Option.bind_eq_some_iff.mp hh
  obtain ⟨-, h', hself, hcompute⟩ := ValidRecords.forall_event hv e (List.mem_of_getLast? he)
  obtain ⟨-, b, -, rfl⟩ := computeEventHash_eq_ok.mp hcompute
  obtain rfl : _ = h := Option.some.inj (hself.symm.trans hh)
  exact ⟨b, rfl⟩

theorem Verified.keepsHash_default {content : Content} {es : List EventEnvelope}
    (hv : Verified P content es) :
    KeepsHash (.default P) (ActionLineage.terminalHash none es) := by
  intro h hh
  obtain ⟨b, hb⟩ := hv.terminalHash_digest hh
  rw [hb]
  exact redactText_sha256Digest b

/-! ## Runs of appends -/

/-- Calls in the order the exclusive lock lets them in: what each returned or raised, and the
content they leave. -/
def runAppends (P : Platform) (policy : RedactionPolicy) :
    Content → List EventEnvelope → List (Except PyError EventEnvelope) × Content
  | content, [] => ([], content)
  | content, e :: calls =>
    let step := appendEvent P policy content e
    let rest := runAppends P policy step.2 calls
    (step.1 :: rest.1, rest.2)

/-- The events the successful calls returned. -/
def returned (results : List (Except PyError EventEnvelope)) : List EventEnvelope :=
  results.filterMap Except.toOption

@[simp] theorem returned_ok (r : EventEnvelope) (results : List (Except PyError EventEnvelope)) :
    returned (.ok r :: results) = r :: returned results := rfl

@[simp] theorem returned_error (exc : PyError) (results : List (Except PyError EventEnvelope)) :
    returned (.error exc :: results) = returned results := rfl

theorem runAppends_verified {content : Content} {es : List EventEnvelope}
    (hv : Verified P content es) (calls : List EventEnvelope) :
    Verified P (runAppends P (.default P) content calls).2
      (es ++ returned (runAppends P (.default P) content calls).1) := by
  induction calls generalizing content es with
  | nil => simpa [runAppends, returned] using hv
  | cons e calls ih =>
    cases hstep : appendEvent P (.default P) content e with
    | mk result content' =>
      simp only [runAppends, hstep]
      cases result with
      | error exc =>
        obtain rfl := appendEvent_error hstep
        simpa using ih hv
      | ok r =>
        have := ih (hv.append hstep hv.keepsHash_default)
        simpa using this

/-- The snapshot is the chain of the given events. -/
structure VerifiedJournalSnapshot.Holds (s : VerifiedJournalSnapshot)
    (es : List EventEnvelope) : Prop where
  ok : s.ok = true
  recordCount : s.recordCount = es.length
  terminalHash : s.terminalHash = es.getLast?.bind (·.integrity.eventHash)
  events : s.events = es
  sequence : ∀ i (hi : i < es.length), (es.get ⟨i, hi⟩).causality.sequence = i
  linked : HashChain.Linked (fun e : EventEnvelope => e.integrity.previousEventHash)
    (fun e => e.integrity.eventHash) none es

/-- A call raises and changes nothing, or adds one line. -/
def AddsLine (before : Content) (step : Except PyError EventEnvelope × Content) : Prop :=
  match step with
  | (.error _, after) => after = before
  | (.ok _, after) =>
    ∃ body, newline ∉ body ∧ after = some (before.getD [] ++ body ++ [newline])

theorem Verified.holds {content : Content} {es : List EventEnvelope} (hv : Verified P content es) :
    (verifiedSnapshot P content es).Holds es where
  ok := rfl
  recordCount := rfl
  terminalHash := HashChain.terminal_none _ _
  events := rfl
  sequence i hi := by simpa using hv.getElem_sequence i hi
  linked := hv.linked

/-- After any calls the journal is the chain of the events they returned, and the next call either
raises and changes nothing or adds one line. -/
theorem runAppends_invariant {content : Content} (hempty : content.getD [] = [])
    (calls : List EventEnvelope) (call : EventEnvelope) :
    let run := runAppends P (.default P) content calls
    (∃ s, verifiedJournalSnapshot P run.2 none .null = .ok s ∧ s.Holds (returned run.1)) ∧
      AddsLine run.2 (appendEvent P (.default P) run.2 call) := by
  intro run
  have hv : Verified P run.2 (returned run.1) := by
    have := runAppends_verified (verified_nil (P := P) hempty) calls
    rwa [List.nil_append] at this
  refine ⟨⟨_, snapshot_of_verified hv, hv.holds⟩, ?_⟩
  unfold AddsLine
  split
  · rename_i hstep
    exact appendEvent_error hstep
  · rename_i hstep
    obtain ⟨-, line, hprep, rfl⟩ := (appendEvent_eq_ok hv).mp hstep
    obtain ⟨-, -, -, -, -, -, -, hline⟩ := prepared_cases hprep
    exact ⟨line, newline_notMem_serializeEvent hline, rfl⟩

def firstEvent : EventEnvelope := sampleEvent (sampleText "a") 0 emptyPayload

def secondEvent : EventEnvelope := sampleEvent (sampleText "b") 1 emptyPayload

theorem runAppends_invariant_sample :
    let run := runAppends .plain (.default .plain) none [firstEvent]
    (∃ s, verifiedJournalSnapshot .plain run.2 none .null = .ok s ∧ s.Holds (returned run.1)) ∧
      AddsLine run.2 (appendEvent .plain (.default .plain) run.2 secondEvent) :=
  runAppends_invariant (P := .plain) rfl [firstEvent] secondEvent

/-- A successful append, taken apart. -/
theorem exists_appendEvent_ok {policy : RedactionPolicy} {content : Content} {e : EventEnvelope}
    (h : (appendEvent P policy content e).1.toOption.isSome = true) :
    ∃ r after, appendEvent P policy content e = (.ok r, after) := by
  cases hstep : appendEvent P policy content e with
  | mk result after =>
    rw [hstep] at h
    cases result with
    | error exc => cases h
    | ok r => exact ⟨r, after, rfl⟩

/-- The journal of one appended event. -/
theorem exists_verified_of_append {e : EventEnvelope}
    (h : (appendEvent P (.default P) none e).1.toOption.isSome = true) :
    ∃ content r, Verified P content [r] := by
  obtain ⟨r, after, hstep⟩ := exists_appendEvent_ok h
  have hv : Verified P none [] := verified_nil rfl
  exact ⟨after, r, hv.append hstep hv.keepsHash_default⟩

theorem exists_verified_sample : ∃ content r, Verified .checksummed content [r] :=
  exists_verified_of_append (e := firstEvent) (by decide +kernel)

/-! ## Any policy -/

/-- The record that was written re-verifies in its place. -/
structure Reverifies (P : Platform) (terminalHash : Option Text) (r : EventEnvelope)
    (after : Content) : Prop where
  hash : ∃ hash, r.integrity.eventHash = some hash ∧ computeEventHash P r = .ok hash
  previous : r.integrity.previousEventHash = terminalHash
  journal : ∃ s, verifiedJournalSnapshot P after none .null = .ok s ∧ s.ok = true

/-- The record a policy wrote re-verifies exactly when the policy leaves the terminal hash alone. -/
theorem appended_verifies_iff (hinj : Function.Injective P.sha256Hex) {content content' : Content}
    {s : VerifiedJournalSnapshot} (hs : verifiedJournalSnapshot P content none .null = .ok s)
    (hok : s.ok = true) {e r : EventEnvelope}
    (h : appendEvent P policy content e = (.ok r, content')) :
    Reverifies P s.terminalHash r content' ↔
      ∀ hash, s.terminalHash = some hash → redactText policy hash.val = .ok hash.val := by
  obtain ⟨es, hv, rfl⟩ := snapshot_ok_iff.mp ⟨hs, hok⟩
  obtain ⟨hseq, line, hprep, rfl⟩ := (appendEvent_eq_ok hv).mp h
  constructor
  · intro hr
    obtain ⟨hash, hself, hcompute⟩ := hr.hash
    exact keepsHash_of_computeEventHash hinj hprep hself hcompute
  · intro hk
    have hrecord := record_of_keepsHash hprep hk
    exact ⟨hrecord.hash, hrecord.previous, _, snapshot_of_verified (hv.append h hk), rfl⟩

/-- A policy that writes `digest` for `sha256`. -/
def renamingPolicy (P : Platform) : RedactionPolicy :=
  { RedactionPolicy.default P with
    patterns := [⟨fun s => .ok ((Re.text exactly "sha256").sub [.text (lit "digest")] s)⟩] }

theorem appended_verifies_iff_sample :
    ∃ s r after, verifiedJournalSnapshot .plain none none .null = .ok s ∧
      appendEvent .plain (renamingPolicy .plain) none firstEvent = (.ok r, after) ∧
      (Reverifies .plain s.terminalHash r after ↔
        ∀ hash, s.terminalHash = some hash →
          redactText (renamingPolicy .plain) hash.val = .ok hash.val) := by
  obtain ⟨r, after, hstep⟩ : ∃ r after,
      appendEvent .plain (renamingPolicy .plain) none firstEvent = (.ok r, after) :=
    exists_appendEvent_ok (by decide +kernel)
  have hv : Verified .plain none [] := verified_nil rfl
  have hs := snapshot_of_verified hv
  exact ⟨_, r, after, hs, hstep, appended_verifies_iff Platform.plain_injective hs rfl hstep⟩

/-- The second append under `renamingPolicy` succeeds and leaves a journal that does not verify. -/
theorem appended_not_verified :
    let P := Platform.checksummed
    let first := appendEvent P (renamingPolicy P) none firstEvent
    let second := appendEvent P (renamingPolicy P) first.2 secondEvent
    (verifyJournal P first.2 none .null).map (·.ok) = .ok true ∧ second.1.toOption.isSome = true ∧
      (verifyJournal P second.2 none .null).map (·.ok) = .ok false := by
  decide +kernel

end ActionLineage
