import ActionLineage.Evidence.Normalization

/-!
# Copying an event — `EventEnvelope.model_copy`

A copy goes through validation: it is dumped and read again. What can go wrong there is the payload,
which has to be JSON within the limits, and the causality of the copy (`modelCopy_iff`). Its texts
can not, as long as they can be encoded.
-/

namespace ActionLineage

open Py

/-- `t` with more text after it. -/
def Text.append (t : Text) (s : Str) : Text :=
  ⟨t.val ++ s, fun h => t.property (List.append_eq_nil_iff.mp h).1⟩

/-- What an update of an event changes. -/
structure EventUpdate where
  eventId : Text
  eventType : Text
  observedAt : DateTime
  causality : Causality
  payload : Obj

/-- The empty update. -/
def EventEnvelope.unchanged (e : EventEnvelope) : EventUpdate :=
  ⟨e.eventId, e.eventType, e.observedAt, e.causality, e.payload.items⟩

/-- `model_dump(mode="python")` of the updated event. Its timestamps are `datetime`s: they stand
here as texts, and are handed to the reader by themselves. -/
def EventEnvelope.updated (e : EventEnvelope) (u : EventUpdate) : Obj :=
  [(lit "spec_version", .str SPEC_VERSION), (lit "event_id", .str u.eventId.val),
   (lit "event_type", .str u.eventType.val), (lit "occurred_at", .str e.occurredAt.isoZ),
   (lit "observed_at", .str u.observedAt.isoZ), (lit "source", e.source.json),
   (lit "correlation", e.correlation.json), (lit "causality", u.causality.json),
   (lit "principal", e.principal.json), (lit "classification", e.classification.json),
   (lit "payload", .dict u.payload), (lit "integrity", e.integrity.json)]

def EventEnvelope.modelCopy (P : Platform) (e : EventEnvelope) (u : EventUpdate) :
    Except PyError EventEnvelope :=
  validated (readEvent P (.dict (e.updated u)) (some e.occurredAt) (some u.observedAt))

/-! ## Texts that can be encoded -/

def Source.texts (s : Source) : List Text := [s.component, s.instanceId, s.version]

def Correlation.texts (c : Correlation) : List Text :=
  [c.traceId, c.runId] ++ c.spanId.toList ++ c.sessionId.toList

def Causality.texts (c : Causality) : List Text := c.rootEventId :: c.parentEventId.toList

def Principal.texts (p : Principal) : List Text :=
  p.principalId :: (p.onBehalfOf.toList ++ p.modelId.toList ++ p.credentialId.toList)

def IntegrityMetadata.texts (i : IntegrityMetadata) : List Text :=
  i.previousEventHash.toList ++ i.eventHash.toList

/-- The fields with `min_length=1`. -/
def EventEnvelope.texts (e : EventEnvelope) : List Text :=
  [e.eventId, e.eventType] ++ e.source.texts ++ e.correlation.texts ++ e.causality.texts
    ++ e.principal.texts ++ e.integrity.texts

def Encodable (texts : List Text) : Prop := ∀ t ∈ texts, SurrogateFree t.val

/-- The length-constrained texts of a validated event have a UTF-8 form. -/
def EventEnvelope.Encodable (e : EventEnvelope) : Prop := ActionLineage.Encodable e.texts

theorem encodable_iff {texts : List Text} :
    (texts.all fun t => t.val.all fun c => !isSurrogate c) = true ↔ Encodable texts := by
  simp only [List.all_eq_true, Bool.not_eq_true', Encodable, SurrogateFree]

instance (texts : List Text) : Decidable (Encodable texts) := decidable_of_iff _ encodable_iff

instance (e : EventEnvelope) : Decidable e.Encodable :=
  inferInstanceAs (Decidable (ActionLineage.Encodable e.texts))

theorem encodable_append {a b : List Text} : Encodable (a ++ b) ↔ Encodable a ∧ Encodable b :=
  List.forall_mem_append

theorem encodable_cons {t : Text} {ts : List Text} :
    Encodable (t :: ts) ↔ SurrogateFree t.val ∧ Encodable ts :=
  List.forall_mem_cons

/-! ## Reading the dump of a part -/

variable {P : Platform}

theorem readText_val {t : Text} (h : SurrogateFree t.val) : readText P (.str t.val) = some t :=
  dif_pos ⟨t.property, P.strOk_of_surrogateFree _ h⟩

theorem readOptText_val {t : Option Text} (h : Encodable t.toList) :
    readOptText P (some (optText t)) = some t := by
  cases t with
  | none => rfl
  | some t =>
    show (readText P (.str t.val)).map some = _
    rw [readText_val (h t (List.mem_singleton_self t))]
    rfl

theorem readSource_dumped {s : Source} (h : Encodable s.texts) : readSource P s.json = some s := by
  unfold Source.texts at h
  simp only [encodable_cons] at h
  obtain ⟨hcomponent, hinstance, hversion, -⟩ := h
  show ((readText P (.str s.component.val)).bind fun component =>
    (readText P (.str s.instanceId.val)).bind fun instanceId =>
    (readText P (.str s.version.val)).bind fun version =>
    some (Source.mk component instanceId version)) = some s
  rw [readText_val hcomponent, readText_val hinstance, readText_val hversion]
  rfl

theorem readCorrelation_dumped {c : Correlation} (h : Encodable c.texts) :
    readCorrelation P c.json = some c := by
  unfold Correlation.texts at h
  simp only [encodable_append, encodable_cons] at h
  obtain ⟨⟨⟨htrace, hrun, -⟩, hspan⟩, hsession⟩ := h
  show ((readText P (.str c.traceId.val)).bind fun traceId =>
    (readText P (.str c.runId.val)).bind fun runId =>
    (readOptText P (some (optText c.spanId))).bind fun spanId =>
    (readOptText P (some (optText c.sessionId))).bind fun sessionId =>
    some (Correlation.mk traceId runId spanId sessionId)) = some c
  rw [readText_val htrace, readText_val hrun, readOptText_val hspan, readOptText_val hsession]
  rfl

theorem readCausality_dumped {c : Causality} (h : Encodable c.texts) :
    readCausality P c.json = some c := by
  unfold Causality.texts at h
  rw [encodable_cons] at h
  have hsequence : readNatural P (.int c.sequence) = some c.sequence := by
    simp [readNatural, P.parseInt_int]
  show ((readText P (.str c.rootEventId.val)).bind fun rootEventId =>
    (readNatural P (.int c.sequence)).bind fun sequence =>
    (readOptText P (some (optText c.parentEventId))).bind fun parentEventId =>
    some (Causality.mk rootEventId sequence parentEventId)) = some c
  rw [readText_val h.1, hsequence, readOptText_val h.2]
  rfl

theorem readPrincipal_dumped {p : Principal} (h : Encodable p.texts) :
    readPrincipal P p.json = some p := by
  unfold Principal.texts at h
  simp only [encodable_append, encodable_cons] at h
  obtain ⟨hprincipal, ⟨hbehalf, hmodel⟩, hcredential⟩ := h
  show ((readText P (.str p.principalId.val)).bind fun principalId =>
    (enumOf PrincipalType.all PrincipalType.text p.principalType.text).bind fun principalType =>
    (readOptText P (some (optText p.onBehalfOf))).bind fun onBehalfOf =>
    (readOptText P (some (optText p.modelId))).bind fun modelId =>
    (readOptText P (some (optText p.credentialId))).bind fun credentialId =>
    some (Principal.mk principalId principalType onBehalfOf modelId credentialId)) = some p
  rw [readText_val hprincipal, enumOf_principalType, readOptText_val hbehalf,
    readOptText_val hmodel, readOptText_val hcredential]
  rfl

theorem readClassification_dumped (c : Classification) : readClassification c.json = some c := by
  show ((enumOf Sensitivity.all Sensitivity.text c.sensitivity.text).bind fun sensitivity =>
    (enumOf TrustLevel.all TrustLevel.text c.trust.text).bind fun trust =>
    some (Classification.mk sensitivity trust)) = some c
  rw [enumOf_sensitivity, enumOf_trustLevel]
  rfl

theorem readIntegrity_dumped {i : IntegrityMetadata} (h : Encodable i.texts) :
    readIntegrity P (some i.json) = some i := by
  unfold IntegrityMetadata.texts at h
  rw [encodable_append] at h
  show ((readOptText P (some (optText i.previousEventHash))).bind fun previousEventHash =>
    (readOptText P (some (optText i.eventHash))).bind fun eventHash =>
    some (IntegrityMetadata.mk i.canonicalization previousEventHash eventHash)) = some i
  rw [readOptText_val h.1, readOptText_val h.2]
  rfl

/-! ## When a copy is valid -/

theorem requireJsonPayload_isSome {kvs : Obj} :
    (∃ p, requireJsonPayload kvs = some p) ↔ Fits .default 0 (.dict kvs) := by
  unfold requireJsonPayload
  rw [← walkJson_eq_ok .default (validateErrors .default)]
  constructor
  · rintro ⟨p, hp⟩
    split at hp
    · assumption
    · cases hp
  · intro h
    exact ⟨_, dif_pos h⟩

/-- The texts of the updated event. -/
def EventUpdate.texts (u : EventUpdate) : List Text := [u.eventId, u.eventType] ++ u.causality.texts

/-- Reading the dump checks the payload and the causality. -/
theorem readEvent_updated {e : EventEnvelope} {u : EventUpdate} (he : e.Encodable)
    (hu : Encodable u.texts) :
    readEvent P (.dict (e.updated u)) (some e.occurredAt) (some u.observedAt)
      = (requireJsonPayload u.payload).bind fun payload =>
        if h : CausalityOk u.eventId u.eventType u.causality then
          some ⟨u.eventId, u.eventType, e.occurredAt, u.observedAt, e.source, e.correlation,
            u.causality, e.principal, e.classification, payload, e.integrity, h⟩
        else none := by
  unfold EventEnvelope.Encodable EventEnvelope.texts at he
  unfold EventUpdate.texts at hu
  simp only [encodable_append, encodable_cons] at he hu
  obtain ⟨⟨⟨⟨⟨-, hsource⟩, hcorrelation⟩, -⟩, hprincipal⟩, hintegrity⟩ := he
  obtain ⟨⟨hid, htype, -⟩, hcausality⟩ := hu
  show ((readText P (.str u.eventId.val)).bind fun eventId =>
    (readText P (.str u.eventType.val)).bind fun eventType =>
    (readSource P e.source.json).bind fun source =>
    (readCorrelation P e.correlation.json).bind fun correlation =>
    (readCausality P u.causality.json).bind fun causality =>
    (readPrincipal P e.principal.json).bind fun principal =>
    (readClassification e.classification.json).bind fun classification =>
    (requireJsonPayload u.payload).bind fun payload =>
    (readIntegrity P (some e.integrity.json)).bind fun integrity =>
    if h : CausalityOk eventId eventType causality then
      some (EventEnvelope.mk eventId eventType e.occurredAt u.observedAt source correlation causality
        principal classification payload integrity h)
    else none) = _
  rw [readText_val hid, readText_val htype, readSource_dumped hsource,
    readCorrelation_dumped hcorrelation, readCausality_dumped hcausality,
    readPrincipal_dumped hprincipal, readClassification_dumped, readIntegrity_dumped hintegrity]
  rfl

/-- A copy is an event if its payload is JSON within the limits and its causality is valid. -/
theorem modelCopy_iff {e : EventEnvelope} {u : EventUpdate} (he : e.Encodable)
    (hu : Encodable u.texts) :
    (∃ e', e.modelCopy P u = .ok e') ↔
      Fits .default 0 (.dict u.payload) ∧ CausalityOk u.eventId u.eventType u.causality := by
  unfold EventEnvelope.modelCopy
  simp only [validated_eq_ok]
  rw [readEvent_updated he hu, ← requireJsonPayload_isSome]
  constructor
  · rintro ⟨e', h⟩
    obtain ⟨p, hp, h⟩ := Option.bind_eq_some_iff.mp h
    split at h
    · exact ⟨⟨p, hp⟩, ‹_›⟩
    · cases h
  · rintro ⟨⟨p, hp⟩, hc⟩
    rw [hp, Option.bind_some, dif_pos hc]
    exact ⟨_, rfl⟩

/-- The texts of a copy are those of the update and of the event. -/
theorem modelCopy_encodable {e e' : EventEnvelope} {u : EventUpdate} (he : e.Encodable)
    (hu : Encodable u.texts) (h : e.modelCopy P u = .ok e') : e'.Encodable := by
  unfold EventEnvelope.modelCopy at h
  rw [validated_eq_ok, readEvent_updated he hu] at h
  obtain ⟨p, -, h⟩ := Option.bind_eq_some_iff.mp h
  split at h
  · obtain rfl := Option.some.inj h
    unfold EventEnvelope.Encodable EventEnvelope.texts at he ⊢
    unfold EventUpdate.texts at hu
    simp only [encodable_append] at he hu ⊢
    exact ⟨⟨⟨⟨⟨hu.1, he.1.1.1.1.2⟩, he.1.1.1.2⟩, hu.2⟩, he.1.2⟩, he.2⟩
  · cases h

end ActionLineage
