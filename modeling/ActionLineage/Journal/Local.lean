import ActionLineage.Chain
import ActionLineage.Journal.Hashing

/-!
# The local journal — verification and append

The journal file is newline-delimited canonical events; its content is `none` while the file does
not exist. `checkRecord` is the body of the verifier's loop for one raw line, with every `break` as
an issue; `scanRecords` is the loop. Reading and appending happen under one lock, so both are
functions of the content.

`ValidRecord` says what a good line is without the verifier: the canonical bytes of an event in the
right place, with the right previous hash and its own hash. `checkRecord_eq_inr` connects the two,
and `Verified` is a whole file of them.
-/

namespace ActionLineage

open Py

/-- The bytes of the journal file, `none` when there is no file. -/
abbrev Content := Option Bytes

inductive VerificationCode
  | emptyRecord | truncatedRecord | parseError | unsupportedCanonicalization | sequenceMismatch
  | previousHashMismatch | eventHashMissing | eventHashMismatch | noncanonicalRecord
  | expectedRecordCountMismatch | expectedLastHashMismatch
deriving DecidableEq, Repr

structure VerificationIssue where
  recordNumber : Nat
  code : VerificationCode
  message : String
  eventId : Option Text := none
  expected : Value := .null
  actual : Value := .null

structure VerificationResult where
  ok : Bool
  recordsVerified : Nat
  lastEventHash : Option Text
  issues : List VerificationIssue

structure VerifiedJournalSnapshot where
  events : List EventEnvelope
  verification : VerificationResult
  journalSha256 : Option Str

namespace VerifiedJournalSnapshot

def ok (s : VerifiedJournalSnapshot) : Bool := s.verification.ok

def recordCount (s : VerifiedJournalSnapshot) : Nat := s.verification.recordsVerified

def terminalHash (s : VerifiedJournalSnapshot) : Option Text := s.verification.lastEventHash

end VerifiedJournalSnapshot

/-- An `int` of Python, of which `bool` is a subclass. -/
inductive IntLike
  | int (i : Int)
  | bool (b : Bool)
deriving DecidableEq

namespace IntLike

def toInt : IntLike → Int
  | int i => i
  | bool b => if b then 1 else 0

def toValue : IntLike → Value
  | int i => .int i
  | bool b => .bool b

end IntLike

section Verify

variable (P : Platform)

/-- `raw_line.rstrip(b"\n")`. -/
def rstripNewline (line : Bytes) : Bytes := (line.reverse.dropWhile (· == newline)).reverse

/-- One iteration of the verifier's loop: the issue it stops with, or the event it accepts. -/
def checkRecord (index : Nat) (expectedPreviousHash : Option Text) (rawLine : Bytes) :
    Except PyError (VerificationIssue ⊕ EventEnvelope) :=
  let recordNumber := index + 1
  if rawLine.getLast? ≠ some newline then
    .ok (.inl
      { recordNumber, code := .truncatedRecord
        message := "journal record is missing its newline terminator" })
  else
    let line := rstripNewline rawLine
    if line = [] then
      .ok (.inl { recordNumber, code := .emptyRecord, message := "journal record is empty" })
    else
      match parseEvent P line with
      | .error exc =>
        if exc.isActionLineageError || exc.isValueError then
          .ok (.inl
            { recordNumber, code := .parseError, message := "journal record is not a valid event" })
        else .error exc
      | .ok event => do
        -- not inside the verifier's `try`: what this raises reaches the caller
        let expectedLine := (← serializeEvent P event) ++ [newline]
        if rawLine ≠ expectedLine then
          .ok (.inl
            { recordNumber, code := .noncanonicalRecord
              message := "journal record bytes do not exactly match canonical serialization"
              eventId := some event.eventId, expected := .str (lit "canonical_event_line")
              actual := .str (lit "journal_record_line") })
        else if event.causality.sequence ≠ index then
          .ok (.inl
            { recordNumber, code := .sequenceMismatch
              message := "event sequence does not match journal record order"
              eventId := some event.eventId, expected := .int index
              actual := .int event.causality.sequence })
        else if event.integrity.previousEventHash ≠ expectedPreviousHash then
          .ok (.inl
            { recordNumber, code := .previousHashMismatch
              message := "previous_event_hash does not match prior record hash"
              eventId := some event.eventId, expected := optText expectedPreviousHash
              actual := optText event.integrity.previousEventHash })
        else if event.integrity.eventHash = none then
          .ok (.inl
            { recordNumber, code := .eventHashMissing
              message := "event_hash is required for journal verification"
              eventId := some event.eventId })
        else
          match computeEventHash P event with
          | .error (.canonicalizationError _) =>
            .ok (.inl
              { recordNumber, code := .unsupportedCanonicalization
                message := "event canonicalization label is not supported for " ++
                  "persisted journal hash verification"
                eventId := some event.eventId
                expected := .str (lit "supported_persisted_event_canonicalization")
                actual := .str event.integrity.canonicalization })
          | .error exc => .error exc
          | .ok computedHash =>
            if event.integrity.eventHash ≠ some computedHash then
              .ok (.inl
                { recordNumber, code := .eventHashMismatch
                  message := "event_hash does not match canonical event bytes"
                  eventId := some event.eventId, expected := .str computedHash.val
                  actual := optText event.integrity.eventHash })
            else .ok (.inr event)

/-- The variables of the verifier's loop. -/
structure ScanState where
  issues : List VerificationIssue
  expectedPreviousHash : Option Text
  lastEventHash : Option Text
  recordsVerified : Nat
  events : List EventEnvelope

def ScanState.start : ScanState := ⟨[], none, none, 0, []⟩

def ScanState.accept (s : ScanState) (event : EventEnvelope) : ScanState :=
  { s with
    expectedPreviousHash := event.integrity.eventHash
    lastEventHash := event.integrity.eventHash
    recordsVerified := s.recordsVerified + 1
    events := s.events ++ [event] }

def scanRecords : Nat → List Bytes → ScanState → Except PyError ScanState
  | _, [], s => .ok s
  | index, rawLine :: rest, s => do
    match ← checkRecord P index s.expectedPreviousHash rawLine with
    | .inl issue => .ok { s with issues := s.issues ++ [issue] }
    | .inr event => scanRecords (index + 1) rest (s.accept event)

/-- `last_event_hash != expected`. -/
def hashEquals (actual : Option Text) (expected : Value) : Bool :=
  match actual, expected with
  | some h, .str s => h.val == s
  | _, _ => false

/-- A value pydantic takes for `str | int | None`. -/
def issueValue (v : Value) : Except PyError Value :=
  match v with
  | .null => .ok v
  | .str _ => .ok v
  | _ =>
    match P.parseInt v with
    | some i => .ok (.int i)
    | none => .error .validationError

/-- The check of a trusted record count. -/
def countIssues (recordsVerified : Nat) (expectedRecordCount : Option IntLike) :
    List VerificationIssue :=
  match expectedRecordCount with
  | none => []
  | some n =>
    if (recordsVerified : Int) ≠ n.toInt then
      [{ recordNumber := recordsVerified, code := .expectedRecordCountMismatch
         message := "verified record count does not match expected trusted count"
         expected := .int n.toInt, actual := .int recordsVerified }]
    else []

/-- The check of a trusted terminal hash; `null` is none. -/
def hashIssues (recordsVerified : Nat) (lastEventHash : Option Text)
    (expectedLastEventHash : Value) : Except PyError (List VerificationIssue) :=
  match expectedLastEventHash with
  | .null => .ok []
  | expected =>
    if hashEquals lastEventHash expected then .ok []
    else do
      .ok [{ recordNumber := recordsVerified, code := .expectedLastHashMismatch
             message := "last event hash does not match expected trusted hash"
             expected := ← issueValue P expected, actual := optText lastEventHash }]

@[simp] theorem countIssues_none (n : Nat) : countIssues n none = [] := rfl

@[simp] theorem hashIssues_null (n : Nat) (last : Option Text) :
    hashIssues P n last .null = .ok [] := rfl

def verifiedJournalSnapshot (content : Content) (expectedRecordCount : Option IntLike)
    (expectedLastEventHash : Value) : Except PyError VerifiedJournalSnapshot := do
  let s ← scanRecords P 0 (splitLines (content.getD [])) .start
  let hashIssues ← hashIssues P s.recordsVerified s.lastEventHash expectedLastEventHash
  let issues := s.issues ++ countIssues s.recordsVerified expectedRecordCount ++ hashIssues
  .ok
    { events := s.events
      verification := ⟨issues.isEmpty, s.recordsVerified, s.lastEventHash, issues⟩
      journalSha256 :=
        if issues.isEmpty then content.map P.sha256Digest else none }

def verifyJournal (content : Content) (expectedRecordCount : Option IntLike)
    (expectedLastEventHash : Value) : Except PyError VerificationResult := do
  .ok (← verifiedJournalSnapshot P content expectedRecordCount expectedLastEventHash).verification

/-- `list(iter_events(path))`: the events of the lines, unverified. -/
def iterEvents (content : Content) : Except PyError (List EventEnvelope) :=
  let lines := (splitLines (content.getD [])).map rstripNewline
  (lines.filter fun line => line ≠ []).mapM (parseEvent P)

/-- `_append_line`. -/
def appendLine (content : Content) (canonicalBytes : Bytes) : Content :=
  some (content.getD [] ++ canonicalBytes ++ [newline])

/-- `append_event`: what it returns or raises, and the content it leaves. -/
def appendEvent (policy : RedactionPolicy) (content : Content) (event : EventEnvelope) :
    Except PyError EventEnvelope × Content :=
  let prepared := do
    let snapshot ← verifiedJournalSnapshot P content none .null
    require snapshot.ok (.journalAppendError "cannot append to a journal that fails verification")
    let expectedSequence := snapshot.recordCount
    require (decide (event.causality.sequence = expectedSequence))
      (.journalAppendError ("event sequence " ++ toString event.causality.sequence ++
        " does not match next journal sequence " ++ toString expectedSequence))
    prepareEventForAppend P policy event snapshot.terminalHash
  match prepared with
  | .ok (redactedEvent, canonicalBytes) => (.ok redactedEvent, appendLine content canonicalBytes)
  | .error exc => (.error exc, content)

end Verify

end ActionLineage
