import ActionLineage.Journal.Records
import ActionLineage.Reference

/-!
# Trusted journal anchors

An anchor states a record count and a terminal hash; verification checks the journal against them,
and the anchor's signature when it carries one.

* Two verified journals with one record count and one terminal hash have the same bytes
  (`content_unique`), so an unsigned anchor accepts exactly the bytes it was made from
  (`anchor_tamper_evident`).
* A document without a signature is never compared with the key, so supplying a key only protects
  when the anchor carries a signature or the journal does not match it
  (`keyed_verification_authentic_iff`).

What `load_journal_anchor` casts without a check (terminal hash, signature, algorithm) stays an
arbitrary JSON value here.
-/

namespace ActionLineage

open Py

def JOURNAL_ANCHOR_VERSION : Str := lit "actionlineage.dev/journal-anchor-v1"

def ANCHOR_SIGNATURE_ALGORITHM : Str := lit "hmac-sha256"

structure JournalAnchor where
  journalPath : Str
  recordCount : IntLike
  lastEventHash : Value
  createdAt : DateTime
  anchorVersion : Str := JOURNAL_ANCHOR_VERSION
  signatureAlgorithm : Value := .null
  signature : Value := .null

namespace JournalAnchor

def asDict (a : JournalAnchor) : Obj :=
  [(lit "anchor_version", .str a.anchorVersion), (lit "created_at", .str a.createdAt.isoZ),
   (lit "journal_path", .str a.journalPath), (lit "last_event_hash", a.lastEventHash),
   (lit "record_count", a.recordCount.toValue), (lit "signature", a.signature),
   (lit "signature_algorithm", a.signatureAlgorithm)]

/-- The signature input. -/
def unsignedDict (a : JournalAnchor) : Obj := a.asDict.set (lit "signature") .null

end JournalAnchor

inductive AnchorIssueCode
  | journalVerificationFailed | signatureKeyMissing | signatureMismatch
deriving DecidableEq, Repr

structure AnchorVerificationIssue where
  code : AnchorIssueCode
  message : String
deriving DecidableEq, Repr

structure AnchorVerificationResult where
  ok : Bool
  journalVerification : VerificationResult
  issues : List AnchorVerificationIssue

section Anchors

variable (P : Platform)

def anchorSignature (a : JournalAnchor) (signingKey : Bytes) : Except PyError Str := do
  let data ← deterministicJsonBytes (.dict a.unsignedDict)
  .ok (ANCHOR_SIGNATURE_ALGORITHM ++ lit ":" ++ P.hmacSha256Hex signingKey data)

def createJournalAnchor (journalPath : Str) (content : Content) (signingKey : Option Bytes)
    (createdAt : DateTime) : Except PyError JournalAnchor := do
  let verification ← verifyJournal P content none .null
  require verification.ok (.journalAnchorError "cannot anchor a journal that fails verification")
  let anchor : JournalAnchor :=
    { journalPath, recordCount := .int verification.recordsVerified
      lastEventHash := optText verification.lastEventHash, createdAt }
  match signingKey with
  | none => .ok anchor
  | some key => do
    let signingAnchor := { anchor with signatureAlgorithm := .str ANCHOR_SIGNATURE_ALGORITHM }
    .ok { signingAnchor with signature := .str (← anchorSignature P signingAnchor key) }

/-- `value == text` for a JSON value. -/
def isText (v : Value) (s : Str) : Bool :=
  match v with
  | .str t => t == s
  | _ => false

/-- The checks of the signature, made only when the anchor carries one. -/
def signatureIssues (a : JournalAnchor) (signingKey : Option Bytes) :
    Except PyError (List AnchorVerificationIssue) :=
  match a.signature with
  | .null => .ok []
  | signature =>
    match signingKey with
    | none =>
      .ok [⟨.signatureKeyMissing, "signed anchor verification requires a signing key"⟩]
    | some key => do
      if isText signature (← anchorSignature P a key) then .ok []
      else .ok [⟨.signatureMismatch, "anchor signature does not match trusted key"⟩]

def verifyJournalAnchor (content : Content) (a : JournalAnchor) (signingKey : Option Bytes) :
    Except PyError AnchorVerificationResult := do
  let signature ← signatureIssues P a signingKey
  let verification ← verifyJournal P content (some a.recordCount) a.lastEventHash
  let journal : List AnchorVerificationIssue :=
    if verification.ok then []
    else [⟨.journalVerificationFailed, "journal does not match trusted anchor"⟩]
  let issues := signature ++ journal
  .ok ⟨issues.isEmpty, verification, issues⟩

/-! ## Loading -/

def requiredStr (raw : Obj) (key : String) : Except PyError Str :=
  match raw.get? (lit key) with
  | some (.str (c :: s)) => .ok (c :: s)
  | _ => .error (.journalAnchorError ("anchor field is required: " ++ key))

def requiredInt (raw : Obj) (key : String) : Except PyError IntLike :=
  match raw.get? (lit key) with
  | some (.int i) => .ok (.int i)
  | some (.bool b) => .ok (.bool b)
  | _ => .error (.journalAnchorError ("anchor integer field is required: " ++ key))

/-- `datetime.fromisoformat(text.replace("Z", "+00:00")).astimezone(UTC)`. -/
def parseUtcTimestamp (s : Str) : Except PyError DateTime :=
  match P.fromIsoFormat (s.flatMap fun c => if c = cp 'Z' then lit "+00:00" else [c]) with
  | none => .error (.valueError "Invalid isoformat string")
  | some (d, offset) =>
    match d.ofLocal (offset.getD (P.localOffset d)) with
    | some utc => .ok utc
    | none => .error (.overflowError "date value out of range")

def anchorFromDict (raw : Obj) : Except PyError JournalAnchor := do
  let createdAt ← parseUtcTimestamp P (← requiredStr raw "created_at")
  let anchorVersion ← requiredStr raw "anchor_version"
  let journalPath ← requiredStr raw "journal_path"
  let recordCount ← requiredInt raw "record_count"
  .ok
    { journalPath, recordCount, createdAt, anchorVersion
      lastEventHash := (raw.get? (lit "last_event_hash")).getD .null
      signatureAlgorithm := (raw.get? (lit "signature_algorithm")).getD .null
      signature := (raw.get? (lit "signature")).getD .null }

/-- `read_text(encoding="utf-8")` refuses surrogates; its newline translation only touches JSON
whitespace. -/
def loadJournalAnchor (document : Bytes) : Except PyError JournalAnchor := do
  match (utf8Decode document).filter fun s => decide (SurrogateFree s) with
  | none => .error .unicodeDecodeError
  | some text =>
    match ← (loadsText (.plain P.recursionLimit) text).mapError .ofLoad with
    | .dict raw => anchorFromDict P raw
    | _ => .error (.journalAnchorError "journal anchor must be a JSON object")

end Anchors

variable {P : Platform}

/-! ## Tamper evidence -/

/-- When digests do not collide, the hash a record states determines the record. -/
theorem eq_of_eventHash (hinj : Function.Injective P.sha256Hex) (e e' : EventEnvelope)
    (h : e.Canonical ∧ ∃ h, e.integrity.eventHash = some h ∧ computeEventHash P e = .ok h)
    (h' : e'.Canonical ∧ ∃ h, e'.integrity.eventHash = some h ∧ computeEventHash P e' = .ok h)
    (heq : e.integrity.eventHash = e'.integrity.eventHash) : e = e' := by
  obtain ⟨hc, t, hself, hcompute⟩ := h
  obtain ⟨hc', t', hself', hcompute'⟩ := h'
  obtain rfl : t = t' := Option.some.inj (hself.symm.trans (heq.trans hself'))
  exact eq_of_computeEventHash hinj hc hc' hcompute hcompute' heq

/-- When digests do not collide, record count and terminal hash determine a verified journal. -/
theorem content_unique (hinj : Function.Injective P.sha256Hex) {content content' : Content}
    {es es' : List EventEnvelope} (hv : Verified P content es) (hv' : Verified P content' es')
    (hlen : es.length = es'.length) (hterm : terminalHash none es = terminalHash none es') :
    content.getD [] = content'.getD [] := by
  obtain rfl : es = es' := HashChain.eq_of_terminal_eq _ _ (eq_of_eventHash hinj) hv.linked
    hv'.linked hv.forall_event hv'.forall_event hlen hterm
  have hlines := ValidRecords.lines_unique hv hv'
  rw [← splitLines_flatten (content.getD []), hlines, splitLines_flatten]

/-- A verified journal is accepted against a count and a hash exactly when it has them. -/
theorem verifyJournal_ok_iff {content : Content} {count : Option IntLike} {hash : Value} :
    (∃ r, verifyJournal P content count hash = .ok r ∧ r.ok = true) ↔
      ∃ es, Verified P content es ∧ (∀ n, count = some n → (es.length : Int) = n.toInt) ∧
        (hash ≠ .null → hashEquals (terminalHash none es) hash = true) := by
  constructor
  · rintro ⟨r, hr, hok⟩
    obtain ⟨s, hs, hr⟩ := bind_eq_ok.mp hr
    obtain rfl := Except.ok.inj hr
    obtain ⟨es, hv, -, hcount, hhash⟩ := snapshot_expected_ok_iff.mp ⟨hs, hok⟩
    exact ⟨es, hv, hcount, hhash⟩
  · rintro ⟨es, hv, hcount, hhash⟩
    obtain ⟨hs, hok⟩ := snapshot_expected_ok_iff.mpr ⟨es, hv, rfl, hcount, hhash⟩
    exact ⟨_, bind_eq_ok.mpr ⟨_, hs, rfl⟩, hok⟩

theorem verifyJournalAnchor_ok_iff {content : Content} {a : JournalAnchor} {key : Option Bytes} :
    (∃ r, verifyJournalAnchor P content a key = .ok r ∧ r.ok = true) ↔
      signatureIssues P a key = .ok [] ∧
        ∃ r, verifyJournal P content (some a.recordCount) a.lastEventHash = .ok r ∧ r.ok = true := by
  constructor
  · rintro ⟨r, hr, hok⟩
    obtain ⟨issues, hissues, hr⟩ := bind_eq_ok.mp hr
    obtain ⟨v, hv, hr⟩ := bind_eq_ok.mp hr
    obtain rfl := Except.ok.inj hr
    simp only [List.isEmpty_iff, List.append_eq_nil_iff] at hok
    obtain ⟨rfl, hjournal⟩ := hok
    refine ⟨hissues, v, hv, ?_⟩
    by_contra hne
    simp [hne] at hjournal
  · rintro ⟨hissues, v, hv, hok⟩
    refine ⟨⟨true, v, []⟩, ?_, rfl⟩
    simp [verifyJournalAnchor, hissues, hv, hok, bind, Except.bind]

theorem hashEquals_optText {h h' : Option Text} :
    (optText h' ≠ .null → hashEquals h (optText h') = true) ↔ h' = none ∨ h = h' := by
  cases h' with
  | none => simp [optText]
  | some t =>
    cases h with
    | none => simp [optText, hashEquals]
    | some s => simp [optText, hashEquals, Subtype.ext_iff]

/-- The anchor carries the signature of what it states. -/
def Authentic (P : Platform) (a : JournalAnchor) (key : Bytes) : Prop :=
  ∃ signature, anchorSignature P a key = .ok signature ∧ a.signature = .str signature

theorem isText_iff {v : Value} {s : Str} : isText v s = true ↔ v = .str s := by
  cases v <;> simp [isText]

/-- With a key, the signature checks pass for an authentic anchor and for one without signature. -/
theorem signatureIssues_eq_nil {a : JournalAnchor} {key : Bytes} :
    signatureIssues P a (some key) = .ok [] ↔ a.signature = .null ∨ Authentic P a key := by
  unfold signatureIssues Authentic
  split
  · rename_i hnull
    simp [hnull]
  · rename_i hne
    have hne : a.signature ≠ .null := hne
    cases hs : anchorSignature P a key with
    | error exc => simp [hs, bind, Except.bind, hne]
    | ok signature =>
      simp only [hs, bind, Except.bind, hne, false_or, Except.ok.injEq, exists_eq_left']
      rw [← isText_iff]
      split <;> rename_i h <;> simp [h]

/-- Keyed verification of a loaded document vouches for it exactly when the document carries a
signature or the journal does not match what it states. -/
theorem keyed_verification_authentic_iff (document : Bytes) (content : Content) (key : Bytes) :
    (∀ a, loadJournalAnchor P document = .ok a →
      (∃ r, verifyJournalAnchor P content a (some key) = .ok r ∧ r.ok = true) →
      Authentic P a key) ↔
    ∀ a, loadJournalAnchor P document = .ok a →
      a.signature ≠ .null ∨
        ¬ ∃ r, verifyJournal P content (some a.recordCount) a.lastEventHash = .ok r ∧
          r.ok = true := by
  refine forall₂_congr fun a _ => ?_
  rw [verifyJournalAnchor_ok_iff, signatureIssues_eq_nil]
  by_cases hnull : a.signature = .null
  · have hnot : ¬ Authentic P a key := by
      rintro ⟨signature, -, hsig⟩
      rw [hnull] at hsig
      cases hsig
    simp [hnull, hnot]
  · simp only [hnull, false_or, and_imp, ne_eq, not_false_eq_true, true_or, iff_true]
    exact fun h _ => h

/-- An anchor of the empty journal with no signature field. -/
def unsignedDocument : Bytes := utf8Bytes (lit ("\x7b\"anchor_version\":\"v\"," ++
  "\"created_at\":\"2026-01-02T03:04:05Z\",\"journal_path\":\"j\",\"record_count\":0\x7d"))

/-- A document nobody signed passes keyed verification. -/
theorem keyed_verification_accepts_unsigned :
    (do
      let a ← loadJournalAnchor .plain unsignedDocument
      let r ← verifyJournalAnchor .plain none a (some [1, 2, 3])
      .ok (r.ok, isText a.signature (← anchorSignature .plain a [1, 2, 3]))) = .ok (true, false) := by
  decide +kernel

end ActionLineage
