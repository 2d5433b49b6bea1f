import ActionLineage.Domain.Serialization

/-!
# Journal hash chaining

`computeEventHash` digests an event with its own hash unset, so the hash commits to everything else
in it, the previous hash included. `prepareEventForAppend` puts the previous hash in, redacts,
re-parses, hashes, and then puts the *original* previous hash back.
-/

namespace ActionLineage

open Py

section Hashing

variable (P : Platform)

def sha256Digest (b : Bytes) : Text := ⟨P.sha256Digest b, P.sha256Digest_ne_nil b⟩

/-- Copying through validation changes nothing else: the event is valid already. -/
def eventWithIntegrity (e : EventEnvelope) (previousEventHash eventHash : Option Text) :
    EventEnvelope :=
  { e with integrity := ⟨e.integrity.canonicalization, previousEventHash, eventHash⟩ }

def isSupportedPersistedEventCanonicalization (label : Str) : Bool :=
  label == CANONICALIZATION_VERSION

def requireSupportedPersistedEventCanonicalization (label : Str) : Except PyError Unit :=
  require (isSupportedPersistedEventCanonicalization label) (.canonicalizationError label)

def computeEventHash (e : EventEnvelope) : Except PyError Text := do
  requireSupportedPersistedEventCanonicalization e.integrity.canonicalization
  let hashEvent := eventWithIntegrity e e.integrity.previousEventHash none
  .ok (sha256Digest P (← serializeEvent P hashEvent))

/-- The redacted event and the canonical bytes to append. -/
def prepareEventForAppend (policy : RedactionPolicy) (e : EventEnvelope)
    (previousEventHash : Option Text) : Except PyError (EventEnvelope × Bytes) := do
  requireSupportedPersistedEventCanonicalization e.integrity.canonicalization
  let eventForHash := eventWithIntegrity e previousEventHash none
  let redactedHashEvent ← eventFromJson P (← serializeEventForPersistence P policy eventForHash)
  let eventHash ← computeEventHash P redactedHashEvent
  let redactedEvent := eventWithIntegrity redactedHashEvent previousEventHash (some eventHash)
  .ok (redactedEvent, ← serializeEvent P redactedEvent)

end Hashing

variable {P : Platform}

@[simp] theorem eventWithIntegrity_integrity (e : EventEnvelope) (p h : Option Text) :
    (eventWithIntegrity e p h).integrity = ⟨e.integrity.canonicalization, p, h⟩ := rfl

@[simp] theorem eventWithIntegrity_payload (e : EventEnvelope) (p h : Option Text) :
    (eventWithIntegrity e p h).payload = e.payload := rfl

@[simp] theorem eventWithIntegrity_causality (e : EventEnvelope) (p h : Option Text) :
    (eventWithIntegrity e p h).causality = e.causality := rfl

@[simp] theorem eventWithIntegrity_eventId (e : EventEnvelope) (p h : Option Text) :
    (eventWithIntegrity e p h).eventId = e.eventId := rfl

@[simp] theorem eventWithIntegrity_twice (e : EventEnvelope) (p h p' h' : Option Text) :
    eventWithIntegrity (eventWithIntegrity e p h) p' h' = eventWithIntegrity e p' h' := rfl

theorem EventEnvelope.Canonical.withIntegrity {e : EventEnvelope} (h : e.Canonical)
    (p q : Option Text) : (eventWithIntegrity e p q).Canonical := ⟨h.sorted, h.keys⟩

theorem computeEventHash_eq_ok {e : EventEnvelope} {h : Text} :
    computeEventHash P e = .ok h ↔
      isSupportedPersistedEventCanonicalization e.integrity.canonicalization = true ∧
      ∃ b, serializeEvent P (eventWithIntegrity e e.integrity.previousEventHash none) = .ok b ∧
        h = sha256Digest P b := by
  simp only [computeEventHash, requireSupportedPersistedEventCanonicalization, bind_eq_ok,
    Except.ok.injEq]
  constructor
  · rintro ⟨_, hs, b, hb, rfl⟩
    exact ⟨require_eq_ok.mp hs, b, hb, rfl⟩
  · rintro ⟨hs, b, hb, rfl⟩
    exact ⟨(), require_eq_ok.mpr hs, b, hb, rfl⟩

theorem serializeEvent_isOk_iff {e : EventEnvelope} :
    (∃ b, serializeEvent P e = .ok b) ↔ ∃ o, P.dumpPayload e.payload.items = .ok o ∧
      Fits .default 0 (.dict (e.items o)) ∧ Dumpable (.dict (e.items o)) := by
  simp only [serializeEvent_eq_ok, ← exists_dumpBytes_iff]
  constructor
  · rintro ⟨b, o, ho, hfits, hb⟩
    exact ⟨o, ho, hfits, b, hb⟩
  · rintro ⟨o, ho, hfits, b, hb⟩
    exact ⟨b, o, ho, hfits, hb⟩

/-- The members of an event object other than the integrity block do not depend on it. -/
theorem forall_mem_items_withIntegrity {e : EventEnvelope} {o : Obj} {p h : Option Text}
    {Q : Value → Prop} (hQ : ∀ m ∈ e.items o, Q m.2)
    (hintegrity : Q e.integrity.json → Q (eventWithIntegrity e p h).integrity.json) :
    ∀ m ∈ (eventWithIntegrity e p h).items o, Q m.2 := by
  simp only [EventEnvelope.items, List.forall_mem_cons] at hQ ⊢
  obtain ⟨h1, h2, h3, h4, h5, h6, h7, h8, h9, h10, h11, h12, h13⟩ := hQ
  exact ⟨h1, h2, h3, h4, h5, h6, h7, h8, h9, h10, h11, hintegrity h12, h13⟩

theorem serializeEvent_unhashed {e : EventEnvelope} (h : ∃ b, serializeEvent P e = .ok b) :
    ∃ b, serializeEvent P (eventWithIntegrity e e.integrity.previousEventHash none) = .ok b := by
  obtain ⟨o, ho, hfits, hdump⟩ := serializeEvent_isOk_iff.mp h
  refine serializeEvent_isOk_iff.mpr ⟨o, ho, ?_, ?_⟩
  · rw [fits_dict] at hfits ⊢
    refine ⟨hfits.1, hfits.2.1, forall_mem_items_withIntegrity hfits.2.2 fun hi => ?_⟩
    rw [IntegrityMetadata.json, fits_dict] at hi ⊢
    simp only [IntegrityMetadata.items, List.forall_mem_cons] at hi ⊢
    exact ⟨hi.1, hi.2.1, hi.2.2.1, hi.2.2.2.1, hi.2.2.1, by simp⟩
  · rw [Dumpable, Value.all_dict] at hdump ⊢
    refine ⟨hdump.1, forall_mem_items_withIntegrity hdump.2 fun hi => ?_⟩
    rw [IntegrityMetadata.json, Value.all_dict] at hi ⊢
    simp only [IntegrityMetadata.items, List.forall_mem_cons] at hi ⊢
    exact ⟨hi.1, hi.2.1, hi.2.2.1, trivial, by simp⟩

/-- The hash commits to the whole event: canonical events with one hash differ at most in the hash
they state themselves. -/
theorem eq_of_computeEventHash (hinj : Function.Injective P.sha256Hex) {e e' : EventEnvelope}
    (hc : e.Canonical) (hc' : e'.Canonical) {h : Text} (he : computeEventHash P e = .ok h)
    (he' : computeEventHash P e' = .ok h) (hself : e.integrity.eventHash = e'.integrity.eventHash) :
    e = e' := by
  obtain ⟨hs, b, hb, rfl⟩ := computeEventHash_eq_ok.mp he
  obtain ⟨hs', b', hb', hdigest⟩ := computeEventHash_eq_ok.mp he'
  obtain rfl : b = b' := P.sha256Digest_injective hinj (congrArg Subtype.val hdigest)
  have heq := serializeEvent_injective (hc.withIntegrity _ _) (hc'.withIntegrity _ _) hb hb'
  have hprev : e.integrity.previousEventHash = e'.integrity.previousEventHash :=
    (IntegrityMetadata.mk.inj (EventEnvelope.mk.inj heq).2.2.2.2.2.2.2.2.2.2).2.1
  calc e = eventWithIntegrity (eventWithIntegrity e e.integrity.previousEventHash none)
        e.integrity.previousEventHash e.integrity.eventHash := rfl
    _ = eventWithIntegrity (eventWithIntegrity e' e'.integrity.previousEventHash none)
        e'.integrity.previousEventHash e'.integrity.eventHash := by rw [heq, hprev, hself]
    _ = e' := rfl

/-- What a successful preparation says. -/
theorem prepareEventForAppend_eq_ok {policy : RedactionPolicy} {e r : EventEnvelope}
    {prev : Option Text} {line : Bytes} :
    prepareEventForAppend P policy e prev = .ok (r, line) ↔
      isSupportedPersistedEventCanonicalization e.integrity.canonicalization = true ∧
      ∃ b redacted h,
        serializeEventForPersistence P policy (eventWithIntegrity e prev none) = .ok b ∧
        eventFromJson P b = .ok redacted ∧ computeEventHash P redacted = .ok h ∧
        r = eventWithIntegrity redacted prev (some h) ∧ serializeEvent P r = .ok line := by
  simp only [prepareEventForAppend, requireSupportedPersistedEventCanonicalization, bind_eq_ok,
    Except.ok.injEq, Prod.mk.injEq]
  constructor
  · rintro ⟨_, hs, b, hb, redacted, hr, h, hh, l, hl, rfl, rfl⟩
    exact ⟨require_eq_ok.mp hs, b, redacted, h, hb, hr, hh, rfl, hl⟩
  · rintro ⟨hs, b, redacted, h, hb, hr, hh, rfl, hl⟩
    exact ⟨(), require_eq_ok.mpr hs, b, hb, redacted, hr, h, hh, line, hl, rfl, rfl⟩

end ActionLineage
