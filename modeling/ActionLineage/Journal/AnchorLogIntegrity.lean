import ActionLineage.Journal.AnchorLog
import ActionLineage.Domain.EventCodec

/-!
# What an anchor log is worth

* When digests do not collide, the number of records and the last hash determine the entries that
  are loaded (`anchor_log_tamper_evident`). The digest is taken of the decoded entry and not of the
  line, so the many spellings of one document do not matter; fields without a type are compared as
  Python compares them, dicts without their order.
-/

namespace ActionLineage

open Py

variable {P : Platform}

/-! ## Entries with one hash -/

/-- The anchors state the same. -/
structure JournalAnchor.Same (a b : JournalAnchor) : Prop where
  journalPath : a.journalPath = b.journalPath
  recordCount : a.recordCount = b.recordCount
  lastEventHash : a.lastEventHash.sortKeys = b.lastEventHash.sortKeys
  createdAt : a.createdAt = b.createdAt
  anchorVersion : a.anchorVersion = b.anchorVersion
  signatureAlgorithm : a.signatureAlgorithm.sortKeys = b.signatureAlgorithm.sortKeys
  signature : a.signature.sortKeys = b.signature.sortKeys

/-- The entries state the same. -/
structure JournalAnchorLogEntry.Same (a b : JournalAnchorLogEntry) : Prop where
  sequence : a.sequence = b.sequence
  anchor : a.anchor.Same b.anchor
  previousEntryHash : a.previousEntryHash = b.previousEntryHash
  entryHash : a.entryHash = b.entryHash
  createdAt : a.createdAt = b.createdAt
  logVersion : a.logVersion = b.logVersion

theorem IntLike.toValue_injective : Function.Injective IntLike.toValue := by
  intro a b h
  cases a <;> cases b <;> simp_all [IntLike.toValue]

/-- The fields without a type hold no dict with a repeated key. -/
structure JournalAnchor.WellFormed (a : JournalAnchor) : Prop where
  lastEventHash : a.lastEventHash.WellFormed
  signatureAlgorithm : a.signatureAlgorithm.WellFormed
  signature : a.signature.WellFormed

theorem JournalAnchor.WellFormed.asDict {a : JournalAnchor} (h : a.WellFormed) :
    (Value.dict a.asDict).WellFormed := by
  have hcount : a.recordCount.toValue.WellFormed := by
    cases a.recordCount <;> trivial
  refine (Value.all_dict _).mpr ⟨?_, ?_⟩
  · change [lit "anchor_version", lit "created_at", lit "journal_path", lit "last_event_hash",
      lit "record_count", lit "signature", lit "signature_algorithm"].Nodup
    decide
  · simp only [JournalAnchor.asDict, List.forall_mem_cons]
    exact ⟨trivial, trivial, trivial, h.lastEventHash, hcount, h.signature, h.signatureAlgorithm,
      fun p hp => absurd hp List.not_mem_nil⟩

theorem JournalAnchorLogEntry.hashInputDict_wellFormed {e : JournalAnchorLogEntry}
    (hanchor : e.anchor.WellFormed) (hprevious : e.previousEntryHash.WellFormed) :
    (Value.dict e.hashInputDict).WellFormed := by
  have hsequence : e.sequence.toValue.WellFormed := by
    cases e.sequence <;> trivial
  refine (Value.all_dict _).mpr ⟨?_, ?_⟩
  · change [lit "anchor", lit "created_at", lit "entry_hash", lit "log_version",
      lit "previous_entry_hash", lit "sequence"].Nodup
    decide
  · change ∀ p ∈ [(lit "anchor", Value.dict e.anchor.asDict), (lit "created_at", .str e.createdAt.isoZ),
      (lit "entry_hash", .null), (lit "log_version", .str e.logVersion),
      (lit "previous_entry_hash", e.previousEntryHash), (lit "sequence", e.sequence.toValue)], _
    simp only [List.forall_mem_cons]
    exact ⟨hanchor.asDict, trivial, trivial, trivial, hprevious, hsequence,
      fun p hp => absurd hp List.not_mem_nil⟩

theorem member_wellFormed {raw : Obj} (hraw : (Value.dict raw).WellFormed) (k : Str) :
    ((raw.get? k).getD .null).WellFormed := by
  cases h : raw.get? k with
  | none => trivial
  | some v => exact ((Value.all_dict raw).mp hraw).2 (k, v) (Obj.mem_of_get? h)

/-- What an anchor document decodes to. -/
theorem anchorFromDict_wellFormed {raw : Obj} (hraw : (Value.dict raw).WellFormed)
    {a : JournalAnchor} (h : anchorFromDict P raw = .ok a) : a.WellFormed := by
  obtain ⟨_, -, h⟩ := bind_eq_ok.mp h
  obtain ⟨_, -, h⟩ := bind_eq_ok.mp h
  obtain ⟨_, -, h⟩ := bind_eq_ok.mp h
  obtain ⟨_, -, h⟩ := bind_eq_ok.mp h
  obtain ⟨_, -, h⟩ := bind_eq_ok.mp h
  obtain rfl := Except.ok.inj h
  exact ⟨member_wellFormed hraw _, member_wellFormed hraw _, member_wellFormed hraw _⟩

theorem DecodesTo.wellFormed {line : Bytes} {e : JournalAnchorLogEntry} (h : DecodesTo P line e) :
    e.anchor.WellFormed := by
  obtain ⟨raw, hloads, h⟩ := h
  have hraw := loads_wellFormed hloads
  obtain ⟨_, -, h⟩ := bind_eq_ok.mp h
  obtain ⟨_, -, h⟩ := bind_eq_ok.mp h
  split at h
  · rename_i anchorRaw hanchor
    obtain ⟨anchor, ha, h⟩ := bind_eq_ok.mp h
    obtain ⟨_, -, h⟩ := bind_eq_ok.mp h
    obtain ⟨_, -, h⟩ := bind_eq_ok.mp h
    obtain rfl := Except.ok.inj h
    refine anchorFromDict_wellFormed ?_ ha
    exact ((Value.all_dict raw).mp hraw).2 (_, _) (Obj.mem_of_get? hanchor)
  · cases h

theorem hashValue_wellFormed (hash : Option Str) : (hashValue hash).WellFormed := by
  cases hash <;> trivial

theorem IntLike.eq_of_sortKeys {a b : IntLike} (h : a.toValue.sortKeys = b.toValue.sortKeys) :
    a = b := by
  apply IntLike.toValue_injective
  cases a <;> cases b <;> exact h

theorem JournalAnchor.same_of_sortKeys {a b : JournalAnchor} (ha : a.WellFormed) (hb : b.WellFormed)
    (h : (Value.dict a.asDict).sortKeys = (Value.dict b.asDict).sortKeys) : a.Same b := by
  have hmember : ∀ {k : Str} {v w : Value}, a.asDict.get? k = some v → b.asDict.get? k = some w →
      v.sortKeys = w.sortKeys := member_eq_of_sortKeys ha.asDict hb.asDict h
  have hcreated : (Value.str a.createdAt.isoZ).sortKeys = (Value.str b.createdAt.isoZ).sortKeys :=
    @hmember (lit "created_at") _ _ rfl rfl
  have hversion : (Value.str a.anchorVersion).sortKeys = (Value.str b.anchorVersion).sortKeys :=
    @hmember (lit "anchor_version") _ _ rfl rfl
  have hpath : (Value.str a.journalPath).sortKeys = (Value.str b.journalPath).sortKeys :=
    @hmember (lit "journal_path") _ _ rfl rfl
  exact
    { journalPath := Value.str.inj hpath
      recordCount := IntLike.eq_of_sortKeys (@hmember (lit "record_count") _ _ rfl rfl)
      lastEventHash := @hmember (lit "last_event_hash") _ _ rfl rfl
      createdAt := DateTime.isoZ_injective (Value.str.inj hcreated)
      anchorVersion := Value.str.inj hversion
      signatureAlgorithm := @hmember (lit "signature_algorithm") _ _ rfl rfl
      signature := @hmember (lit "signature") _ _ rfl rfl }

/-- When digests do not collide, the hash of an entry determines what it states. -/
theorem same_of_hash (hinj : Function.Injective P.sha256Hex) {index index' : Nat}
    {prev prev' : Option Str} {line line' : Bytes} {e e' : JournalAnchorLogEntry}
    (h : LoggedEntry P index prev line e) (h' : LoggedEntry P index' prev' line' e')
    (heq : e.hash = e'.hash) : e.Same e' := by
  obtain ⟨hash, hself, hcompute⟩ := h.hash
  obtain ⟨hash', hself', hcompute'⟩ := h'.hash
  obtain rfl : hash = hash' := by
    rw [JournalAnchorLogEntry.hash, JournalAnchorLogEntry.hash, hself, hself'] at heq
    exact Option.some.inj heq
  obtain ⟨doc, hdoc, heq⟩ := bind_eq_ok.mp hcompute
  obtain ⟨doc', hdoc', heq'⟩ := bind_eq_ok.mp hcompute'
  obtain rfl : doc = doc' := by
    have := (Except.ok.inj heq).trans (Except.ok.inj heq').symm
    exact hinj (List.append_cancel_left this)
  have hanchor := h.decodes.wellFormed
  have hanchor' := h'.decodes.wellFormed
  have hmember : ∀ {k : Str} {v w : Value}, e.hashInputDict.get? k = some v →
      e'.hashInputDict.get? k = some w → v.sortKeys = w.sortKeys :=
    member_eq_of_dumpBytes
      (JournalAnchorLogEntry.hashInputDict_wellFormed hanchor (h.previous ▸ hashValue_wellFormed _))
      (JournalAnchorLogEntry.hashInputDict_wellFormed hanchor' (h'.previous ▸ hashValue_wellFormed _))
      (deterministicJsonBytes_eq_ok.mp hdoc) (deterministicJsonBytes_eq_ok.mp hdoc')
  have hcreated : (Value.str e.createdAt.isoZ).sortKeys = (Value.str e'.createdAt.isoZ).sortKeys :=
    @hmember (lit "created_at") _ _ rfl rfl
  have hversion : (Value.str e.logVersion).sortKeys = (Value.str e'.logVersion).sortKeys :=
    @hmember (lit "log_version") _ _ rfl rfl
  have hprevious : (hashValue prev).sortKeys = (hashValue prev').sortKeys := by
    rw [← h.previous, ← h'.previous]
    exact @hmember (lit "previous_entry_hash") _ _ rfl rfl
  have hflat : ∀ o, (hashValue o).sortKeys = hashValue o := fun o => by cases o <;> rfl
  exact
    { sequence := IntLike.eq_of_sortKeys (@hmember (lit "sequence") _ _ rfl rfl)
      anchor := JournalAnchor.same_of_sortKeys hanchor hanchor' (@hmember (lit "anchor") _ _ rfl rfl)
      previousEntryHash := by rw [h.previous, h'.previous, ← hflat, hprevious, hflat]
      entryHash := hself.trans hself'.symm
      createdAt := DateTime.isoZ_injective (Value.str.inj hcreated)
      logVersion := Value.str.inj hversion }

/-! ## Tamper evidence -/

theorem LoggedEntries.linked {index : Nat} {prev : Option Str} {lines : List Bytes}
    {es : List JournalAnchorLogEntry} (h : LoggedEntries P index prev lines es) :
    HashChain.Linked JournalAnchorLogEntry.previousHash JournalAnchorLogEntry.hash prev es := by
  induction h with
  | nil => trivial
  | cons head _ ih =>
    refine ⟨?_, ih⟩
    rw [JournalAnchorLogEntry.previousHash, head.previous, textOf_hashValue]

theorem LoggedEntries.forall_entry {index : Nat} {prev : Option Str} {lines : List Bytes}
    {es : List JournalAnchorLogEntry} (h : LoggedEntries P index prev lines es) :
    ∀ e ∈ es, ∃ i p line, LoggedEntry P i p line e := by
  induction h with
  | nil => exact fun e he => absurd he List.not_mem_nil
  | cons head _ ih =>
    intro e he
    rcases List.mem_cons.mp he with rfl | he
    · exact ⟨_, _, _, head⟩
    · exact ih e he

/-- **Anchor log tamper evidence.** When digests do not collide, two logs that verify with the same
number of records and the same last hash are loaded as the same entries. -/
theorem anchor_log_tamper_evident (hinj : Function.Injective P.sha256Hex) (content content' : Content)
    (v v' : AnchorLogVerificationResult) (hv : verifyJournalAnchorLog P content none none = .ok v)
    (hok : v.ok = true) (hv' : verifyJournalAnchorLog P content' none none = .ok v')
    (hok' : v'.ok = true) (hcount : v.recordsVerified = v'.recordsVerified)
    (hlast : v.lastEntryHash = v'.lastEntryHash) :
    ∃ es es', loadJournalAnchorLog P content = .ok es ∧ loadJournalAnchorLog P content' = .ok es' ∧
      List.Forall₂ JournalAnchorLogEntry.Same es es' := by
  obtain ⟨es, hes, rfl⟩ := verifyJournalAnchorLog_ok_iff.mp ⟨hv, hok⟩
  obtain ⟨es', hes', rfl⟩ := verifyJournalAnchorLog_ok_iff.mp ⟨hv', hok'⟩
  refine ⟨es, es', loadJournalAnchorLog_of_verified hes, loadJournalAnchorLog_of_verified hes', ?_⟩
  refine HashChain.forall₂_of_terminal_eq JournalAnchorLogEntry.previousHash
    JournalAnchorLogEntry.hash ?_ ?_ hes.linked hes'.linked hes.forall_entry hes'.forall_entry hcount
    hlast
  · rintro e e' ⟨_, _, _, he⟩ ⟨_, _, _, he'⟩ heq
    exact same_of_hash hinj he he' heq
  · intro e e' h
    rw [JournalAnchorLogEntry.previousHash, JournalAnchorLogEntry.previousHash, h.previousEntryHash]

/-- An anchor of an empty journal. -/
def sampleAnchor : JournalAnchor where
  journalPath := lit "journal.ndjson"
  recordCount := .int 0
  lastEventHash := .null
  createdAt := sampleTime

/-- A log with one entry. -/
def oneEntryLog (P : Platform) : Bytes :=
  ((appendJournalAnchorLog P none sampleAnchor none sampleTime).2).getD []

/-- A blank before the document changes the bytes and not the entry. -/
theorem anchor_log_tamper_evident_sample :
    ∃ es es', loadJournalAnchorLog .plain (some (oneEntryLog .plain)) = .ok es ∧
      loadJournalAnchorLog .plain (some (⟨32, by decide⟩ :: oneEntryLog .plain)) = .ok es' ∧
      List.Forall₂ JournalAnchorLogEntry.Same es es' := by
  let state (content : Content) :=
    (verifyJournalAnchorLog .plain content none none).map fun v => (v.ok, v.recordsVerified)
  obtain ⟨v, hv, hv'⟩ := map_eq_ok.mp
    (show state (some (oneEntryLog .plain)) = .ok (true, 1) by decide +kernel)
  obtain ⟨w, hw, hw'⟩ := map_eq_ok.mp
    (show state (some (⟨32, by decide⟩ :: oneEntryLog .plain)) = .ok (true, 1) by decide +kernel)
  have hlast : (verifyJournalAnchorLog .plain (some (oneEntryLog .plain)) none none).map
        (·.lastEntryHash)
      = (verifyJournalAnchorLog .plain (some (⟨32, by decide⟩ :: oneEntryLog .plain)) none none).map
        (·.lastEntryHash) := by
    decide +kernel
  rw [hv, hw] at hlast
  obtain ⟨hok, hcount⟩ := Prod.mk.inj hv'
  obtain ⟨hok', hcount'⟩ := Prod.mk.inj hw'
  exact anchor_log_tamper_evident Platform.plain_injective _ _ v w hv hok hw hok'
    (hcount.trans hcount'.symm) (Except.ok.inj hlast)

end ActionLineage
