import ActionLineage.Journal.Anchors
import ActionLineage.Py.JsonLoaded
import ActionLineage.Py.Splitlines

/-!
# The anchor log

A log of anchors, one JSON document a line, each with the hash of the one before. The verifier reads
lines as `bytes.splitlines` does and any spelling of a document that `json.loads` does. What it
accepts is a run of entries that count from one and name each other's hashes (`LoggedEntries`).

Times are kept in UTC. `previous_entry_hash` and `entry_hash` of a decoded entry are arbitrary JSON
values, as `load_journal_anchor_log` leaves them.
-/

namespace ActionLineage

open Py

def JOURNAL_ANCHOR_LOG_VERSION : Str := lit "actionlineage.dev/journal-anchor-log-v1"

structure JournalAnchorLogEntry where
  sequence : IntLike
  anchor : JournalAnchor
  previousEntryHash : Value
  entryHash : Value
  createdAt : DateTime
  logVersion : Str := JOURNAL_ANCHOR_LOG_VERSION

namespace JournalAnchorLogEntry

def asDict (e : JournalAnchorLogEntry) : Obj :=
  [(lit "anchor", .dict e.anchor.asDict), (lit "created_at", .str e.createdAt.isoZ),
   (lit "entry_hash", e.entryHash), (lit "log_version", .str e.logVersion),
   (lit "previous_entry_hash", e.previousEntryHash), (lit "sequence", e.sequence.toValue)]

/-- The hash input. -/
def hashInputDict (e : JournalAnchorLogEntry) : Obj := e.asDict.set (lit "entry_hash") .null

end JournalAnchorLogEntry

inductive AnchorLogIssueCode
  | emptyRecord | parseError | sequenceMismatch | previousHashMismatch | entryHashMissing
  | entryHashMismatch | expectedRecordCountMismatch | expectedLastHashMismatch
deriving DecidableEq, Repr

structure AnchorLogVerificationIssue where
  recordNumber : Nat
  code : AnchorLogIssueCode
  message : String
  expected : Value := .null
  actual : Value := .null

structure AnchorLogVerificationResult where
  ok : Bool
  recordsVerified : Nat
  lastEntryHash : Option Str
  issues : List AnchorLogVerificationIssue

section AnchorLog

variable (P : Platform)

/-- `_anchor_log_entry_hash`. -/
def anchorLogEntryHash (e : JournalAnchorLogEntry) : Except PyError Str := do
  let data ← deterministicJsonBytes (.dict e.hashInputDict)
  .ok (lit "sha256:" ++ P.sha256Hex data)

/-- `_anchor_log_entry_from_dict`. -/
def anchorLogEntryFromDict (raw : Obj) : Except PyError JournalAnchorLogEntry := do
  let createdAt ← parseUtcTimestamp P (← requiredStr raw "created_at")
  match raw.get? (lit "anchor") with
  | some (.dict anchorRaw) => do
    let anchor ← anchorFromDict P anchorRaw
    let logVersion ← requiredStr raw "log_version"
    let sequence ← requiredInt raw "sequence"
    .ok
      { sequence, anchor, createdAt, logVersion
        previousEntryHash := (raw.get? (lit "previous_entry_hash")).getD .null
        entryHash := (raw.get? (lit "entry_hash")).getD .null }
  | _ => .error (.journalAnchorError "anchor log record missing anchor object")

/-- A hash or `None`, as a JSON value. -/
def hashValue (hash : Option Str) : Value := hash.elim .null .str

/-- `value == hash` for a JSON value. -/
def isHash (v : Value) : Option Str → Bool
  | none => match v with | .null => true | _ => false
  | some s => isText v s

/-- The checks on an entry behind `recordsVerified` entries. -/
def checkAnchorLogEntry (recordNumber recordsVerified : Nat) (lastEntryHash : Option Str)
    (e : JournalAnchorLogEntry) : Except PyError (AnchorLogVerificationIssue ⊕ Str) := do
  if e.sequence.toInt ≠ recordsVerified + 1 then
    .ok (.inl ⟨recordNumber, .sequenceMismatch, "anchor log sequence does not match record order",
      .int (recordsVerified + 1), e.sequence.toValue⟩)
  else if !isHash e.previousEntryHash lastEntryHash then
    .ok (.inl ⟨recordNumber, .previousHashMismatch,
      "anchor log previous hash does not match prior record", hashValue lastEntryHash,
      e.previousEntryHash⟩)
  else
    match e.entryHash with
    | .null =>
      .ok (.inl ⟨recordNumber, .entryHashMissing, "anchor log record is missing entry hash", .null,
        .null⟩)
    | entryHash =>
      let expected ← anchorLogEntryHash P e
      if isText entryHash expected then .ok (.inr expected)
      else
        .ok (.inl ⟨recordNumber, .entryHashMismatch,
          "anchor log entry hash does not match record bytes", .str expected, entryHash⟩)

/-- One round of the verifier's loop: an issue, or the hash of the entry on the line. -/
def checkAnchorLogRecord (recordNumber recordsVerified : Nat) (lastEntryHash : Option Str)
    (rawLine : Bytes) : Except PyError (AnchorLogVerificationIssue ⊕ Str) :=
  let malformed (message : String) : Except PyError (AnchorLogVerificationIssue ⊕ Str) :=
    .ok (.inl ⟨recordNumber, .parseError, message, .null, .null⟩)
  if rawLine = [] then
    .ok (.inl ⟨recordNumber, .emptyRecord, "anchor log record is empty", .null, .null⟩)
  else
    match loads (.plain P.recursionLimit) rawLine with
    | .error .malformed => malformed "anchor log record is not valid JSON"
    | .error exc => .error (.ofLoad exc)
    | .ok (.dict raw) =>
      match anchorLogEntryFromDict P raw with
      | .ok e => checkAnchorLogEntry P recordNumber recordsVerified lastEntryHash e
      | .error (.journalAnchorError _) => malformed "anchor log record is malformed"
      | .error exc =>
        if exc.isValueError then malformed "anchor log record is malformed" else .error exc
    | .ok _ => malformed "anchor log record must be a JSON object"

/-- The verifier's loop; it ends at the first issue. -/
def scanAnchorLog : Nat → Option Str → List Bytes →
    Except PyError (Nat × Option Str × List AnchorLogVerificationIssue)
  | recordsVerified, lastEntryHash, [] => .ok (recordsVerified, lastEntryHash, [])
  | recordsVerified, lastEntryHash, rawLine :: lines => do
    match ← checkAnchorLogRecord P (recordsVerified + 1) recordsVerified lastEntryHash rawLine with
    | .inl issue => .ok (recordsVerified, lastEntryHash, [issue])
    | .inr entryHash => scanAnchorLog (recordsVerified + 1) (some entryHash) lines

/-- The trusted count and hash, where they are given. -/
def anchorLogExpectations (recordsVerified : Nat) (lastEntryHash : Option Str)
    (expectedRecordCount : Option Int) (expectedLastEntryHash : Option Str) :
    List AnchorLogVerificationIssue :=
  (match expectedRecordCount with
    | some n =>
      if (recordsVerified : Int) ≠ n then
        [⟨recordsVerified + 1, .expectedRecordCountMismatch,
          "anchor log does not match trusted record count", .int n, .int recordsVerified⟩]
      else []
    | none => []) ++
  match expectedLastEntryHash with
  | some s =>
    if lastEntryHash ≠ some s then
      [⟨recordsVerified, .expectedLastHashMismatch,
        "anchor log does not match trusted last entry hash", .str s, hashValue lastEntryHash⟩]
    else []
  | none => []

/-- `verify_journal_anchor_log`; a missing file has no records. -/
def verifyJournalAnchorLog (content : Content) (expectedRecordCount : Option Int)
    (expectedLastEntryHash : Option Str) : Except PyError AnchorLogVerificationResult := do
  let (recordsVerified, lastEntryHash, issues) ←
    scanAnchorLog P 0 none (splitlines (content.getD []))
  let issues := issues ++ anchorLogExpectations recordsVerified lastEntryHash expectedRecordCount
    expectedLastEntryHash
  .ok ⟨issues.isEmpty, recordsVerified, lastEntryHash, issues⟩

/-- `append_journal_anchor_log`: what it returns or raises, and the log it leaves. -/
def appendJournalAnchorLog (content : Content) (anchor : JournalAnchor)
    (createdAt : Option DateTime) (now : DateTime) :
    Except PyError JournalAnchorLogEntry × Content :=
  let prepared : Except PyError JournalAnchorLogEntry := do
    let verification ← verifyJournalAnchorLog P content none none
    require verification.ok
      (.journalAnchorError "cannot append to an anchor log that fails verification")
    let unsignedEntry : JournalAnchorLogEntry :=
      { sequence := .int (verification.recordsVerified + 1), anchor
        previousEntryHash := hashValue verification.lastEntryHash, entryHash := .null
        createdAt := createdAt.getD now }
    let entryHash ← anchorLogEntryHash P unsignedEntry
    .ok { unsignedEntry with entryHash := .str entryHash }
  match prepared with
  | .error exc => (.error exc, content)
  | .ok entry =>
    -- the file is opened before the document is written
    match deterministicJsonBytes (.dict entry.asDict) with
    | .error exc => (.error exc, some (content.getD []))
    | .ok line => (.ok entry, some (content.getD [] ++ line ++ [newline]))

/-- `load_journal_anchor_log`. -/
def loadJournalAnchorLog (content : Content) : Except PyError (List JournalAnchorLogEntry) := do
  let verification ← verifyJournalAnchorLog P content none none
  require verification.ok
    (.journalAnchorError "cannot load an anchor log that fails verification")
  (splitlines (content.getD [])).mapM fun rawLine => do
    match ← (loads (.plain P.recursionLimit) rawLine).mapError .ofLoad with
    | .dict raw => anchorLogEntryFromDict P raw
    | _ => .error (.journalAnchorError "anchor log record must be a JSON object")

end AnchorLog

variable {P : Platform}

/-! ## What the verifier accepts -/

def textOf : Value → Option Str
  | .str s => some s
  | _ => none

namespace JournalAnchorLogEntry

def previousHash (e : JournalAnchorLogEntry) : Option Str := textOf e.previousEntryHash

def hash (e : JournalAnchorLogEntry) : Option Str := textOf e.entryHash

end JournalAnchorLogEntry

/-- The entry is decoded from the line. -/
def DecodesTo (P : Platform) (line : Bytes) (e : JournalAnchorLogEntry) : Prop :=
  ∃ raw, loads (.plain P.recursionLimit) line = .ok (.dict raw) ∧
    anchorLogEntryFromDict P raw = .ok e

/-- The line is the entry behind `index` entries, the last of them with the hash `prev`. -/
structure LoggedEntry (P : Platform) (index : Nat) (prev : Option Str) (line : Bytes)
    (e : JournalAnchorLogEntry) : Prop where
  decodes : DecodesTo P line e
  sequence : e.sequence.toInt = index + 1
  previous : e.previousEntryHash = hashValue prev
  hash : ∃ h, e.entryHash = .str h ∧ anchorLogEntryHash P e = .ok h

inductive LoggedEntries (P : Platform) :
    Nat → Option Str → List Bytes → List JournalAnchorLogEntry → Prop
  | nil {index prev} : LoggedEntries P index prev [] []
  | cons {index prev line lines e es} (head : LoggedEntry P index prev line e)
      (tail : LoggedEntries P (index + 1) e.hash lines es) :
      LoggedEntries P index prev (line :: lines) (e :: es)

/-- The file is a log of the entries. -/
def VerifiedLog (P : Platform) (content : Content) (es : List JournalAnchorLogEntry) : Prop :=
  LoggedEntries P 0 none (splitlines (content.getD [])) es

theorem textOf_hashValue (hash : Option Str) : textOf (hashValue hash) = hash := by
  cases hash <;> rfl

theorem isHash_iff {v : Value} {hash : Option Str} : isHash v hash = true ↔ v = hashValue hash := by
  cases hash with
  | none => cases v <;> simp [isHash, hashValue]
  | some s => exact isText_iff

theorem loads_nil (n : Nat) : loads (.plain n) [] = .error .malformed := rfl

theorem checkAnchorLogEntry_eq_inr {n index : Nat} {prev : Option Str} {e : JournalAnchorLogEntry}
    {h : Str} : checkAnchorLogEntry P n index prev e = .ok (.inr h) ↔
      e.sequence.toInt = index + 1 ∧ e.previousEntryHash = hashValue prev ∧ e.entryHash = .str h ∧
        anchorLogEntryHash P e = .ok h := by
  unfold checkAnchorLogEntry
  by_cases hsequence : e.sequence.toInt = index + 1
  swap
  · simp [hsequence]
  by_cases hprevious : isHash e.previousEntryHash prev = true
  swap
  · simp [hsequence, hprevious, ← isHash_iff]
  have hvalue := isHash_iff.mp hprevious
  simp only [hsequence, hprevious, ne_eq, not_true_eq_false, if_false, Bool.not_true,
    Bool.false_eq_true]
  simp only [hvalue, true_and]
  cases hentry : e.entryHash with
  | null => simp
  | _ =>
    cases hhash : anchorLogEntryHash P e with
    | error exc => simp [bind, Except.bind]
    | ok expected =>
      simp only [bind, Except.bind, Except.ok.injEq]
      split
      · rename_i htext
        simp [isText_iff.mp htext, eq_comm]
      · rename_i htext
        rw [Bool.not_eq_true] at htext
        constructor
        · intro h
          cases h
        · rintro ⟨hvalue, rfl⟩
          rw [isText_iff.mpr hvalue] at htext
          cases htext

theorem checkAnchorLogRecord_eq_inr {n index : Nat} {prev : Option Str} {line : Bytes} {h : Str} :
    checkAnchorLogRecord P n index prev line = .ok (.inr h) ↔
      ∃ e, LoggedEntry P index prev line e ∧ e.entryHash = .str h := by
  constructor
  · intro hcheck
    unfold checkAnchorLogRecord at hcheck
    simp only at hcheck
    split at hcheck
    · cases hcheck
    split at hcheck
    · cases hcheck
    · cases hcheck
    · rename_i raw hloads
      split at hcheck
      · rename_i e hentry
        obtain ⟨hsequence, hprevious, hhash, hcompute⟩ := checkAnchorLogEntry_eq_inr.mp hcheck
        exact ⟨e, ⟨⟨raw, hloads, hentry⟩, hsequence, hprevious, h, hhash, hcompute⟩, hhash⟩
      · cases hcheck
      · split at hcheck <;> cases hcheck
    · cases hcheck
  · rintro ⟨e, ⟨⟨raw, hloads, hentry⟩, hsequence, hprevious, h', hhash', hcompute⟩, hhash⟩
    obtain rfl : h' = h := by
      rw [hhash'] at hhash
      exact Value.str.inj hhash
    have hne : line ≠ [] := by
      rintro rfl
      rw [loads_nil] at hloads
      cases hloads
    simp only [checkAnchorLogRecord, hne, if_false, hloads, hentry]
    exact checkAnchorLogEntry_eq_inr.mpr ⟨hsequence, hprevious, hhash, hcompute⟩

theorem scanAnchorLog_eq_ok {index n : Nat} {prev last : Option Str} {lines : List Bytes} :
    scanAnchorLog P index prev lines = .ok (n, last, []) ↔
      ∃ es, LoggedEntries P index prev lines es ∧ n = index + es.length ∧
        last = HashChain.terminal JournalAnchorLogEntry.hash prev es := by
  induction lines generalizing index prev with
  | nil =>
    rw [scanAnchorLog]
    constructor
    · intro h
      cases h
      exact ⟨[], .nil, rfl, rfl⟩
    · rintro ⟨es, hes, rfl, rfl⟩
      cases hes
      rfl
  | cons line lines ih =>
    rw [scanAnchorLog]
    constructor
    · intro h
      obtain ⟨r, hcheck, h⟩ := bind_eq_ok.mp h
      cases r with
      | inl issue => cases h
      | inr entryHash =>
        obtain ⟨e, he, hhash⟩ := checkAnchorLogRecord_eq_inr.mp hcheck
        obtain ⟨es, hes, rfl, rfl⟩ := ih.mp h
        have hsome : e.hash = some entryHash := by rw [JournalAnchorLogEntry.hash, hhash]; rfl
        refine ⟨e :: es, .cons he (hsome ▸ hes), ?_, ?_⟩
        · rw [List.length_cons]
          omega
        · rw [HashChain.terminal_cons, hsome]
    · rintro ⟨es, hes, rfl, rfl⟩
      cases hes with
      | @cons _ _ _ _ e es head tail =>
        obtain ⟨h, hhash, -⟩ := head.hash
        have hsome : e.hash = some h := by rw [JournalAnchorLogEntry.hash, hhash]; rfl
        refine bind_eq_ok.mpr ⟨_, checkAnchorLogRecord_eq_inr.mpr ⟨e, head, hhash⟩, ?_⟩
        refine ih.mpr ⟨es, hsome ▸ tail, ?_, ?_⟩
        · rw [List.length_cons]
          omega
        · rw [HashChain.terminal_cons, hsome]

/-- The verifier accepts exactly the logs. -/
theorem verifyJournalAnchorLog_ok_iff {content : Content} {v : AnchorLogVerificationResult} :
    verifyJournalAnchorLog P content none none = .ok v ∧ v.ok = true ↔
      ∃ es, VerifiedLog P content es ∧
        v = ⟨true, es.length, HashChain.terminal JournalAnchorLogEntry.hash none es, []⟩ := by
  constructor
  · rintro ⟨hv, hok⟩
    obtain ⟨⟨n, last, issues⟩, hscan, hv⟩ := bind_eq_ok.mp hv
    obtain rfl := Except.ok.inj hv
    simp only [anchorLogExpectations, List.append_nil, List.isEmpty_iff] at hok ⊢
    subst hok
    obtain ⟨es, hes, rfl, rfl⟩ := scanAnchorLog_eq_ok.mp hscan
    exact ⟨es, hes, by simp⟩
  · rintro ⟨es, hes, rfl⟩
    have hscan := scanAnchorLog_eq_ok.mpr ⟨es, hes, rfl, rfl⟩
    refine ⟨bind_eq_ok.mpr ⟨_, hscan, ?_⟩, rfl⟩
    simp [anchorLogExpectations]

theorem LoggedEntries.length_eq {index : Nat} {prev : Option Str} {lines : List Bytes}
    {es : List JournalAnchorLogEntry} (h : LoggedEntries P index prev lines es) :
    lines.length = es.length := by
  induction h with
  | nil => rfl
  | cons _ _ ih => simp [ih]

theorem LoggedEntries.decodes {index : Nat} {prev : Option Str} {lines : List Bytes}
    {es : List JournalAnchorLogEntry} (h : LoggedEntries P index prev lines es) :
    List.Forall₂ (DecodesTo P) lines es := by
  induction h with
  | nil => exact .nil
  | cons head _ ih => exact .cons head.decodes ih

/-- A verified log can be loaded, entry by entry. -/
theorem loadJournalAnchorLog_of_verified {content : Content} {es : List JournalAnchorLogEntry}
    (h : VerifiedLog P content es) : loadJournalAnchorLog P content = .ok es := by
  obtain ⟨hv, hok⟩ := verifyJournalAnchorLog_ok_iff.mpr ⟨es, h, rfl⟩
  refine bind_eq_ok.mpr ⟨_, hv, bind_eq_ok.mpr ⟨(), require_eq_ok.mpr hok, mapM_eq_ok.mpr ?_⟩⟩
  refine h.decodes.imp fun line e hdecodes => ?_
  obtain ⟨raw, hloads, hentry⟩ := hdecodes
  simp [hloads, hentry, Except.mapError, bind, Except.bind]

end ActionLineage
