import ActionLineage.Journal.AnchorLogIntegrity
import ActionLineage.Py.Effects

/-!
# Appending to an anchor log

A written entry decodes to itself, so behind a line break an entry that is appended extends a log.
The writer puts it behind whatever the file ends with, and the verifier does not ask for a line
break at the end: in a log without one, such as a copy that lost its last byte, the new entry joins
the last line and the log is lost (`anchor_log_append_iff`).
-/

namespace ActionLineage

open Py

variable {P : Platform}

/-! ## Written entries -/

/-- A text or `None`. -/
def IsOptText (v : Value) : Prop := v = .null ∨ ∃ s, v = .str s

theorem IsOptText.sortKeys {v : Value} (h : IsOptText v) : v.sortKeys = v := by
  rcases h with rfl | ⟨s, rfl⟩ <;> rfl

theorem IsOptText.wellFormed {v : Value} (h : IsOptText v) : v.WellFormed := by
  rcases h with rfl | ⟨s, rfl⟩ <;> trivial

theorem IsOptText.height {v : Value} (h : IsOptText v) : v.height = 0 := by
  rcases h with rfl | ⟨s, rfl⟩ <;> rfl

theorem isOptText_hashValue (hash : Option Str) : IsOptText (hashValue hash) := by
  cases hash with
  | none => exact .inl rfl
  | some s => exact .inr ⟨s, rfl⟩

theorem isOptText_optText (t : Option Text) : IsOptText (optText t) := by
  cases t with
  | none => exact .inl rfl
  | some t => exact .inr ⟨t.val, rfl⟩

/-- The anchor holds what its fields declare. -/
structure JournalAnchor.Declared (a : JournalAnchor) : Prop where
  journalPath : a.journalPath ≠ []
  anchorVersion : a.anchorVersion ≠ []
  lastEventHash : IsOptText a.lastEventHash
  signatureAlgorithm : IsOptText a.signatureAlgorithm
  signature : IsOptText a.signature

theorem JournalAnchor.Declared.wellFormed {a : JournalAnchor} (h : a.Declared) : a.WellFormed :=
  ⟨h.lastEventHash.wellFormed, h.signatureAlgorithm.wellFormed, h.signature.wellFormed⟩

/-- The only `Z` of a canonical timestamp is its last character. -/
theorem isoZ_replace (d : DateTime) :
    d.isoZ.flatMap (fun c => if c = cp 'Z' then lit "+00:00" else [c]) = d.isoformat := by
  have hpad : ∀ k n, ∀ c ∈ DateTime.pad k n, c ≠ cp 'Z' := by
    rintro k n c hc rfl
    exact absurd (DateTime.pad_digits _ hc) (by decide)
  have hsecond : ∀ c ∈ d.secondText, c ≠ cp 'Z' := by
    intro c hc
    simp only [DateTime.secondText, List.mem_append, List.mem_cons] at hc
    rcases hc with h | rfl | h | rfl | h | rfl | h | rfl | h | rfl | h
    all_goals first | exact hpad _ _ c h | decide
  have hfraction : ∀ c ∈ DateTime.fractionText d.micro, c ≠ cp 'Z' := by
    intro c hc
    unfold DateTime.fractionText at hc
    split at hc
    · cases hc
    · rcases List.mem_cons.mp hc with rfl | hc
      · decide
      · exact hpad _ _ c hc
  have hkeep : ∀ text : Str, (∀ c ∈ text, c ≠ cp 'Z') →
      text.flatMap (fun c => if c = cp 'Z' then lit "+00:00" else [c]) = text := by
    intro text htext
    calc text.flatMap (fun c => if c = cp 'Z' then lit "+00:00" else [c])
        = text.flatMap (fun c => [c]) := List.flatMap_congr fun c hc => if_neg (htext c hc)
      _ = text := List.flatMap_singleton' text
  rw [DateTime.isoZ, DateTime.isoformat, List.flatMap_append, List.flatMap_append, hkeep _ hsecond,
    hkeep _ hfraction]
  rfl

theorem parseUtcTimestamp_isoZ (d : DateTime) : parseUtcTimestamp P d.isoZ = .ok d := by
  rw [parseUtcTimestamp, isoZ_replace, P.fromIsoFormat_isoformat]
  simp [DateTime.ofLocal_zero]

theorem requiredStr_of_get? {raw : Obj} {key : String} {s : Str} (hs : s ≠ [])
    (h : raw.get? (lit key) = some (.str s)) : requiredStr raw key = .ok s := by
  rw [requiredStr, h]
  cases s with
  | nil => exact absurd rfl hs
  | cons c s => rfl

theorem requiredInt_of_get? {raw : Obj} {key : String} {i : IntLike}
    (h : raw.get? (lit key) = some i.toValue) : requiredInt raw key = .ok i := by
  rw [requiredInt, h]
  cases i <;> rfl

/-- A canonical timestamp is not empty. -/
theorem isoZ_ne_nil (d : DateTime) : d.isoZ ≠ [] := by
  simp [DateTime.isoZ]

/-- The members of a document, as they are read back. -/
def sortedMembers (kvs : Obj) : Obj := sortPairs (kvs.map fun p => (p.1, p.2.sortKeys))

theorem anchorFromDict_sortedMembers {a : JournalAnchor} (h : a.Declared) :
    anchorFromDict P (sortedMembers a.asDict) = .ok a := by
  have hnodup : (Obj.keys a.asDict).Nodup := ((Value.all_dict _).mp h.wellFormed.asDict).1
  have hget : ∀ {k : Str} {v : Value}, a.asDict.get? k = some v →
      (sortedMembers a.asDict).get? k = some v.sortKeys := field_sortKeys hnodup
  have hcreated := requiredStr_of_get? (isoZ_ne_nil a.createdAt)
    (@hget (lit "created_at") (.str a.createdAt.isoZ) rfl)
  have hversion := requiredStr_of_get? h.anchorVersion
    (@hget (lit "anchor_version") (.str a.anchorVersion) rfl)
  have hpath := requiredStr_of_get? h.journalPath
    (@hget (lit "journal_path") (.str a.journalPath) rfl)
  have hcount : requiredInt (sortedMembers a.asDict) "record_count" = .ok a.recordCount :=
    requiredInt_of_get? (by rw [hget rfl]; cases a.recordCount <;> rfl)
  have hlast : (sortedMembers a.asDict).get? (lit "last_event_hash") = some a.lastEventHash := by
    rw [hget rfl, h.lastEventHash.sortKeys]
  have halgorithm : (sortedMembers a.asDict).get? (lit "signature_algorithm")
      = some a.signatureAlgorithm := by
    rw [hget rfl, h.signatureAlgorithm.sortKeys]
  have hsignature : (sortedMembers a.asDict).get? (lit "signature") = some a.signature := by
    rw [hget rfl, h.signature.sortKeys]
  simp [anchorFromDict, hcreated, parseUtcTimestamp_isoZ, hversion, hpath, hcount, hlast, halgorithm,
    hsignature, bind, Except.bind]

/-- The entry holds what its fields declare. -/
structure JournalAnchorLogEntry.Declared (e : JournalAnchorLogEntry) : Prop where
  anchor : e.anchor.Declared
  previousEntryHash : IsOptText e.previousEntryHash
  entryHash : IsOptText e.entryHash
  logVersion : e.logVersion ≠ []

theorem JournalAnchorLogEntry.Declared.asDict_wellFormed {e : JournalAnchorLogEntry}
    (h : e.Declared) : (Value.dict e.asDict).WellFormed := by
  have hsequence : e.sequence.toValue.WellFormed := by
    cases e.sequence <;> trivial
  refine (Value.all_dict _).mpr ⟨?_, ?_⟩
  · change [lit "anchor", lit "created_at", lit "entry_hash", lit "log_version",
      lit "previous_entry_hash", lit "sequence"].Nodup
    decide
  · simp only [JournalAnchorLogEntry.asDict, List.forall_mem_cons]
    exact ⟨h.anchor.wellFormed.asDict, trivial, h.entryHash.wellFormed, trivial,
      h.previousEntryHash.wellFormed, hsequence, fun p hp => absurd hp List.not_mem_nil⟩

theorem IntLike.height_toValue (i : IntLike) : i.toValue.height = 0 := by
  cases i <;> rfl

theorem JournalAnchorLogEntry.Declared.height {e : JournalAnchorLogEntry} (h : e.Declared) :
    (Value.dict e.asDict).height ≤ 2 := by
  have hanchor : (Value.dict e.anchor.asDict).height ≤ 1 := by
    rw [Value.height_dict_le]
    simp only [JournalAnchor.asDict, List.forall_mem_cons, h.anchor.lastEventHash.height,
      h.anchor.signature.height, h.anchor.signatureAlgorithm.height, IntLike.height_toValue]
    simp [Value.height]
  rw [Value.height_dict_le]
  simp only [JournalAnchorLogEntry.asDict, List.forall_mem_cons, h.entryHash.height,
    h.previousEntryHash.height, IntLike.height_toValue]
  simpa [Value.height] using hanchor

/-- A written entry is read back. -/
theorem JournalAnchorLogEntry.Declared.decodes {e : JournalAnchorLogEntry} (h : e.Declared)
    {line : Bytes} (hline : dumpBytes (.dict e.asDict) = .ok line) : DecodesTo P line e := by
  have hnodup : (Obj.keys e.asDict).Nodup := ((Value.all_dict _).mp h.asDict_wellFormed).1
  have hget : ∀ {k : Str} {v : Value}, e.asDict.get? k = some v →
      (sortedMembers e.asDict).get? k = some v.sortKeys := field_sortKeys hnodup
  refine ⟨sortedMembers e.asDict, ?_, ?_⟩
  · have hlimit := P.recursionLimit_ge
    have := loads_dumpBytes (h := .plain P.recursionLimit) (Scan.keepsObjects_plain _)
      h.asDict_wellFormed (h.height.trans (by simp only [Hooks.plain]; omega)) hline
    rwa [Value.sortKeys_dict] at this
  · have hcreated := requiredStr_of_get? (isoZ_ne_nil e.createdAt)
      (@hget (lit "created_at") (.str e.createdAt.isoZ) rfl)
    have hversion := requiredStr_of_get? h.logVersion
      (@hget (lit "log_version") (.str e.logVersion) rfl)
    have hsequence : requiredInt (sortedMembers e.asDict) "sequence" = .ok e.sequence :=
      requiredInt_of_get? (by rw [hget rfl]; cases e.sequence <;> rfl)
    have hanchor : (sortedMembers e.asDict).get? (lit "anchor")
        = some (.dict (sortedMembers e.anchor.asDict)) := by
      rw [hget rfl, Value.sortKeys_dict]
      rfl
    have hprevious : (sortedMembers e.asDict).get? (lit "previous_entry_hash")
        = some e.previousEntryHash := by
      rw [hget rfl, h.previousEntryHash.sortKeys]
    have hhash : (sortedMembers e.asDict).get? (lit "entry_hash") = some e.entryHash := by
      rw [hget rfl, h.entryHash.sortKeys]
    simp [anchorLogEntryFromDict, hcreated, parseUtcTimestamp_isoZ, hanchor,
      anchorFromDict_sortedMembers h.anchor, hversion, hsequence, hprevious, hhash, bind, Except.bind]

/-! ## Appending -/

theorem LoggedEntries.append {index : Nat} {prev : Option Str} {lines lines' : List Bytes}
    {es es' : List JournalAnchorLogEntry} (h : LoggedEntries P index prev lines es)
    (h' : LoggedEntries P (index + es.length)
      (HashChain.terminal JournalAnchorLogEntry.hash prev es) lines' es') :
    LoggedEntries P index prev (lines ++ lines') (es ++ es') := by
  induction h with
  | nil => exact h'
  | @cons index prev line lines e es head tail ih =>
    refine .cons head (ih ?_)
    rw [HashChain.terminal_cons, List.length_cons] at h'
    rwa [show index + 1 + es.length = index + (es.length + 1) by omega]

/-- What a successful append does. -/
theorem appendJournalAnchorLog_eq_ok {content after : Content} {es : List JournalAnchorLogEntry}
    (hes : VerifiedLog P content es) {anchor : JournalAnchor} {createdAt : Option DateTime}
    {now : DateTime} {entry : JournalAnchorLogEntry}
    (h : appendJournalAnchorLog P content anchor createdAt now = (.ok entry, after)) :
    ∃ hash line, anchorLogEntryHash P entry = .ok hash ∧ dumpBytes (.dict entry.asDict) = .ok line ∧
      after = some (content.getD [] ++ line ++ [newline]) ∧
      entry = { sequence := .int (es.length + 1), anchor
                previousEntryHash :=
                  hashValue (HashChain.terminal JournalAnchorLogEntry.hash none es)
                entryHash := .str hash, createdAt := createdAt.getD now } := by
  obtain ⟨hv, hok⟩ := verifyJournalAnchorLog_ok_iff.mpr ⟨es, hes, rfl⟩
  unfold appendJournalAnchorLog at h
  simp only [hv, require, if_true, bind, Except.bind] at h
  split at h
  · cases h
  · rename_i prepared hprepared
    split at hprepared
    · cases hprepared
    · rename_i hash hhash
      obtain rfl := Except.ok.inj hprepared
      split at h
      · cases h
      · rename_i line hline
        obtain ⟨hentry, rfl⟩ := Prod.mk.inj h
        obtain rfl := Except.ok.inj hentry
        exact ⟨hash, line, hhash, deterministicJsonBytes_eq_ok.mp hline, rfl, rfl⟩

/-- What `create_journal_anchor` returns holds what its fields declare. -/
theorem createJournalAnchor_declared {path : Text} {journal : Content} {key : Option Bytes}
    {createdAt : DateTime} {a : JournalAnchor}
    (h : createJournalAnchor P path.val journal key createdAt = .ok a) : a.Declared := by
  obtain ⟨v, -, h⟩ := bind_eq_ok.mp h
  obtain ⟨_, -, h⟩ := bind_eq_ok.mp h
  have hversion : JOURNAL_ANCHOR_VERSION ≠ [] := by decide
  cases key with
  | none =>
    obtain rfl := Except.ok.inj h
    exact ⟨path.property, hversion, isOptText_optText _, .inl rfl, .inl rfl⟩
  | some key =>
    obtain ⟨signature, -, h⟩ := bind_eq_ok.mp h
    obtain rfl := Except.ok.inj h
    exact ⟨path.property, hversion, isOptText_optText _, .inr ⟨_, rfl⟩, .inr ⟨_, rfl⟩⟩

/-- The old bytes stand before the new ones, and the log verifies with the entry as one more
record. -/
def ExtendsLog (P : Platform) (content after : Content) (v : AnchorLogVerificationResult)
    (entry : JournalAnchorLogEntry) : Prop :=
  content.getD [] <+: after.getD [] ∧
    ∃ w, verifyJournalAnchorLog P after none none = .ok w ∧ w.ok = true ∧
      w.recordsVerified = v.recordsVerified + 1 ∧ hashValue w.lastEntryHash = entry.entryHash

theorem isLineBreak_of_printed {b : Byte} (h : 32 ≤ b.val) : isLineBreak b = false := by
  by_contra hb
  simp only [isLineBreak, Bool.not_eq_false, Bool.or_eq_true, beq_iff_eq] at hb
  rcases hb with rfl | rfl <;> exact absurd h (by decide)

/-- **Appending to an anchor log.** The log that an append leaves verifies with the new entry exactly
when the old one was empty or ended with a line break. -/
theorem anchor_log_append_iff (P : Platform) (content : Content) (v : AnchorLogVerificationResult)
    (hv : verifyJournalAnchorLog P content none none = .ok v) (hok : v.ok = true)
    (path : Text) (journal : Content) (key : Option Bytes) (anchoredAt : DateTime)
    (anchor : JournalAnchor) (hanchor : createJournalAnchor P path.val journal key anchoredAt = .ok anchor)
    (createdAt : Option DateTime) (now : DateTime) (entry : JournalAnchorLogEntry) (after : Content)
    (happend : appendJournalAnchorLog P content anchor createdAt now = (.ok entry, after)) :
    ExtendsLog P content after v entry ↔ EndsLine (content.getD []) := by
  obtain ⟨es, hes, rfl⟩ := verifyJournalAnchorLog_ok_iff.mp ⟨hv, hok⟩
  obtain ⟨hash, line, hhash, hline, rfl, hentry⟩ := appendJournalAnchorLog_eq_ok hes happend
  have hbreaks : ∀ b ∈ line, isLineBreak b = false :=
    fun b hb => isLineBreak_of_printed (dumpBytes_printed hline b hb)
  constructor
  · -- without a line break the number of lines stays as it was
    rintro ⟨-, w, hw, hwok, hcount, -⟩
    by_contra hend
    obtain ⟨es', hes', rfl⟩ := verifyJournalAnchorLog_ok_iff.mp ⟨hw, hwok⟩
    have hlines := length_splitlines_append hend hbreaks
    have hlength := hes.length_eq
    have hlength' := hes'.length_eq
    simp only [Option.getD_some] at hlength' hcount
    omega
  · intro hend
    have hdeclared : entry.Declared := by
      rw [hentry]
      exact ⟨createJournalAnchor_declared hanchor, isOptText_hashValue _, .inr ⟨hash, rfl⟩,
        (by decide : JOURNAL_ANCHOR_LOG_VERSION ≠ [])⟩
    have hdecodes : DecodesTo P line entry := hdeclared.decodes hline
    have hlogged : LoggedEntry P es.length (HashChain.terminal JournalAnchorLogEntry.hash none es) line
        entry := by
      refine ⟨hdecodes, ?_, ?_, hash, ?_, hhash⟩
      · rw [hentry]
        rfl
      · rw [hentry]
      · rw [hentry]
    have hnil : line ≠ [] := by
      rintro rfl
      obtain ⟨raw, hloads, -⟩ := hdecodes
      rw [loads_nil] at hloads
      cases hloads
    obtain ⟨c, rest, rfl⟩ := List.exists_cons_of_ne_nil hnil
    have hc : c ≠ newline := by
      rintro rfl
      exact absurd (hbreaks newline List.mem_cons_self) (by decide)
    have hsplit : splitlines (content.getD [] ++ (c :: rest) ++ [newline])
        = splitlines (content.getD []) ++ [c :: rest] := by
      rw [List.append_assoc, List.cons_append, splitlines_append _ hend hc, ← List.cons_append,
        splitlines_line hbreaks]
    have hverified : VerifiedLog P (some (content.getD [] ++ (c :: rest) ++ [newline]))
        (es ++ [entry]) := by
      rw [VerifiedLog, Option.getD_some, hsplit]
      exact hes.append (by rw [Nat.zero_add]; exact .cons hlogged .nil)
    obtain ⟨hw, hwok⟩ := verifyJournalAnchorLog_ok_iff.mpr ⟨_, hverified, rfl⟩
    refine ⟨?_, _, hw, hwok, by simp, ?_⟩
    · rw [Option.getD_some, List.append_assoc]
      exact List.prefix_append _ _
    · rw [HashChain.terminal_concat, hentry]
      rfl

theorem createJournalAnchor_sample :
    createJournalAnchor .checksummed (sampleText "journal.ndjson").val none none sampleTime
      = .ok sampleAnchor := rfl

theorem anchor_log_append_iff_sample :
    let content : Content := some (oneEntryLog .checksummed)
    ∃ v entry after,
      appendJournalAnchorLog .checksummed content sampleAnchor none sampleTime = (.ok entry, after) ∧
        (ExtendsLog .checksummed content after v entry ↔ EndsLine (content.getD [])) := by
  intro content
  obtain ⟨v, hv, hok⟩ := map_eq_ok.mp (show (verifyJournalAnchorLog .checksummed content none
    none).map (·.ok) = .ok true by decide +kernel)
  obtain ⟨entry, hentry⟩ := exists_ok_of_isSome (x := appendJournalAnchorLog .checksummed content
    sampleAnchor none sampleTime) (by decide +kernel)
  exact ⟨v, entry, _, hentry, anchor_log_append_iff .checksummed content v hv hok
    (sampleText "journal.ndjson") none none sampleTime sampleAnchor createJournalAnchor_sample none
    sampleTime entry _ hentry⟩

/-- A log of one entry that lost its line break is accepted; the second entry joins the first on one
line, and the log is not accepted any more. -/
theorem cut_log_is_lost :
    let content : Content := some (oneEntryLog .checksummed).dropLast
    ∃ v entry after, verifyJournalAnchorLog .checksummed content none none = .ok v ∧ v.ok = true ∧
      v.recordsVerified = 1 ∧
      createJournalAnchor .checksummed (sampleText "journal.ndjson").val none none sampleTime
        = .ok sampleAnchor ∧
      appendJournalAnchorLog .checksummed content sampleAnchor none sampleTime = (.ok entry, after) ∧
      ¬ ExtendsLog .checksummed content after v entry := by
  intro content
  obtain ⟨v, hv, hok⟩ := map_eq_ok.mp (show (verifyJournalAnchorLog .checksummed content none
    none).map (fun v => (v.ok, v.recordsVerified)) = .ok (true, 1) by decide +kernel)
  obtain ⟨hok, hcount⟩ := Prod.mk.inj hok
  obtain ⟨entry, hentry⟩ := exists_ok_of_isSome (x := appendJournalAnchorLog .checksummed content
    sampleAnchor none sampleTime) (by decide +kernel)
  refine ⟨v, entry, _, hv, hok, hcount, createJournalAnchor_sample, hentry, ?_⟩
  rintro ⟨-, w, hw, hwok, -⟩
  have hlost : (verifyJournalAnchorLog .checksummed
      (appendJournalAnchorLog .checksummed content sampleAnchor none sampleTime).2 none none).map
        (·.ok) = .ok false := by
    decide +kernel
  rw [hw] at hlost
  exact absurd (hwok.symm.trans (Except.ok.inj hlost)) (by decide)

end ActionLineage
