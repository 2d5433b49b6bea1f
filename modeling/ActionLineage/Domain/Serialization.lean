import ActionLineage.Domain.EventCodec
import ActionLineage.Domain.Redaction

/-!
# Deterministic serialization and strict parsing

`serializeEvent` writes an event without redaction, `serializeEventForPersistence` redacts first.
`eventFromJson` decodes strictly (no duplicate keys, no NaN or infinity tokens) and validates;
`parseEvent` is the same with the validation and value errors wrapped.

The two directions meet in `parseEvent_of_serializeEvent`: what `serializeEvent` wrote parses to
the event with its payload in key order. An event whose payload is in that form already is
`Canonical`; parsing only ever returns a canonical event from text that was written
(`canonical_of_parseEvent`), and on canonical events the two functions are inverse.
-/

namespace ActionLineage

open Py

section Serialization

variable (P : Platform)

def eventToDict (e : EventEnvelope) : Except PyError Obj := do
  let dumped ← modelJson P e
  match ← normalizeJson .default 0 (.dict dumped) with
  | .dict kvs => .ok kvs
  | _ => .ok dumped

def deterministicJsonBytes (v : Value) : Except PyError Bytes := (dumpBytes v).mapError .ofDump

def rejectDuplicateObjectKeys (pairs : Obj) : Except LoadError Obj :=
  if (Obj.keys pairs).Nodup then .ok pairs
  else .error (.rejected "serialized event JSON contains duplicate object keys")

def strictHooks : Hooks where
  objectPairs := rejectDuplicateObjectKeys
  parseConstant _ := .error (.rejected "serialized event JSON contains a non-finite number")
  recursionLimit := P.recursionLimit

def strictJsonLoads (data : Bytes) : Except PyError Value :=
  (loads (strictHooks P) data).mapError .ofLoad

def eventFromJson (data : Bytes) : Except PyError EventEnvelope := do
  modelValidate P (← strictJsonLoads P data)

/-- `ValidationError` and `ValueError` become `EventParseError`; anything else passes through. -/
def parseEvent (data : Bytes) : Except PyError EventEnvelope :=
  match eventFromJson P data with
  | .ok e => .ok e
  | .error exc => .error (if exc.isValueError then .eventParseError else exc)

def serializeEvent (e : EventEnvelope) : Except PyError Bytes := do
  deterministicJsonBytes (.dict (← eventToDict P e))

/-- Every exception of the redaction step becomes `RedactionError`. -/
def redactEvent (policy : RedactionPolicy) (e : EventEnvelope) : Except PyError Value :=
  match (do policy.apply P (.dict (← eventToDict P e))) with
  | .ok v => .ok v
  | .error _ => .error (.redactionError "redaction failed before event serialization")

def serializeEventForPersistence (policy : RedactionPolicy) (e : EventEnvelope) :
    Except PyError Bytes := do
  match ← redactEvent P policy e with
  | .dict kvs => deterministicJsonBytes (.dict kvs)
  | _ => .error (.redactionError "event redaction produced a non-object value")

end Serialization

variable {P : Platform}

/-! ## What a successful call says -/

theorem eventToDict_eq_ok {e : EventEnvelope} {kvs : Obj} :
    eventToDict P e = .ok kvs ↔ ∃ o, P.dumpPayload e.payload.items = .ok o ∧ kvs = e.items o ∧
      Fits .default 0 (.dict kvs) := by
  constructor
  · intro h
    obtain ⟨dumped, hd, h⟩ := bind_eq_ok.mp h
    obtain ⟨o, ho, hd⟩ := bind_eq_ok.mp hd
    obtain ⟨v, hv, h⟩ := bind_eq_ok.mp h
    obtain ⟨hfits, rfl⟩ := normalizeJson_eq_ok.mp hv
    obtain rfl := Except.ok.inj h
    obtain rfl := Except.ok.inj hd
    exact ⟨o, ho, rfl, hfits⟩
  · rintro ⟨o, ho, rfl, hfits⟩
    have hmodel : modelJson P e = .ok (e.items o) := bind_eq_ok.mpr ⟨o, ho, rfl⟩
    refine bind_eq_ok.mpr ⟨_, hmodel, ?_⟩
    exact bind_eq_ok.mpr ⟨_, normalizeJson_eq_ok.mpr ⟨hfits, rfl⟩, rfl⟩

theorem deterministicJsonBytes_eq_ok {v : Value} {b : Bytes} :
    deterministicJsonBytes v = .ok b ↔ dumpBytes v = .ok b := mapError_eq_ok

theorem serializeEvent_eq_ok {e : EventEnvelope} {b : Bytes} :
    serializeEvent P e = .ok b ↔ ∃ o, P.dumpPayload e.payload.items = .ok o ∧
      Fits .default 0 (.dict (e.items o)) ∧ dumpBytes (.dict (e.items o)) = .ok b := by
  constructor
  · intro h
    obtain ⟨kvs, hkvs, hb⟩ := bind_eq_ok.mp h
    obtain ⟨o, ho, rfl, hfits⟩ := eventToDict_eq_ok.mp hkvs
    exact ⟨o, ho, hfits, deterministicJsonBytes_eq_ok.mp hb⟩
  · rintro ⟨o, ho, hfits, hb⟩
    exact bind_eq_ok.mpr ⟨_, eventToDict_eq_ok.mpr ⟨o, ho, rfl, hfits⟩,
      deterministicJsonBytes_eq_ok.mpr hb⟩

theorem eventToDict_of_serializes {e : EventEnvelope} {b : Bytes}
    (h : serializeEvent P e = .ok b) :
    ∃ o, eventToDict P e = .ok (e.items o) ∧ P.dumpPayload e.payload.items = .ok o ∧
      dumpBytes (.dict (e.items o)) = .ok b ∧ Fits .default 0 (.dict (e.items o)) := by
  obtain ⟨o, ho, hfits, hb⟩ := serializeEvent_eq_ok.mp h
  exact ⟨o, eventToDict_eq_ok.mpr ⟨o, ho, rfl, hfits⟩, ho, hb, hfits⟩

theorem parseEvent_eq_ok {data : Bytes} {e : EventEnvelope} :
    parseEvent P data = .ok e ↔ eventFromJson P data = .ok e := by
  unfold parseEvent
  cases eventFromJson P data <;> simp

theorem eventFromJson_eq_ok {data : Bytes} {e : EventEnvelope} :
    eventFromJson P data = .ok e ↔ ∃ v, loads (strictHooks P) data = .ok v ∧
      modelValidate P v = .ok e := by
  simp only [eventFromJson, strictJsonLoads, bind_eq_ok, mapError_eq_ok]

theorem keepsObjects_strictHooks : Scan.KeepsObjects (strictHooks P) := by
  intro kvs hn
  exact if_pos hn

/-! ## Canonical events -/

/-- The payload is in key order and every key can be encoded. -/
structure EventEnvelope.Canonical (e : EventEnvelope) : Prop where
  sorted : (Value.dict e.payload.items).sortKeys = .dict e.payload.items
  keys : (Value.dict e.payload.items).KeysSurrogateFree

theorem EventEnvelope.Canonical.dumpPayload {e : EventEnvelope} (h : e.Canonical) :
    P.dumpPayload e.payload.items = .ok e.payload.items := P.dumpPayload_eq _ h.keys

/-- The parts of the event object other than the payload have no duplicate keys and are flat. -/
theorem items_wellFormed (e : EventEnvelope) {o : Obj} (ho : (Value.dict o).WellFormed) :
    (Value.dict (e.items o)).WellFormed := by
  have hflat : ∀ t : Option Text, (optText t).WellFormed := by
    intro t
    cases t <;> trivial
  have hsub : ∀ kvs : Obj, (Obj.keys kvs).Nodup → (∀ p ∈ kvs, p.2.WellFormed) →
      (Value.dict kvs).WellFormed := fun kvs hn h => (Value.all_dict kvs).mpr ⟨hn, h⟩
  refine hsub _ (e.keys_nodup o) ?_
  intro p hp
  simp only [EventEnvelope.items, List.mem_cons, List.not_mem_nil, or_false] at hp
  rcases hp with rfl | rfl | rfl | rfl | rfl | rfl | rfl | rfl | rfl | rfl | rfl | rfl
  · trivial
  · trivial
  · trivial
  · trivial
  · trivial
  · refine hsub _ (by simp only [Obj.keys, Source.items, List.map_cons, List.map_nil]; decide) ?_
    simp [Source.items, Value.WellFormed, Value.All]
  · refine hsub _
      (by simp only [Obj.keys, Correlation.items, List.map_cons, List.map_nil]; decide) ?_
    intro p hp
    simp only [Correlation.items, List.mem_cons, List.not_mem_nil, or_false] at hp
    rcases hp with rfl | rfl | rfl | rfl
    · trivial
    · trivial
    · exact hflat _
    · exact hflat _
  · refine hsub _
      (by simp only [Obj.keys, Causality.items, List.map_cons, List.map_nil]; decide) ?_
    intro p hp
    simp only [Causality.items, List.mem_cons, List.not_mem_nil, or_false] at hp
    rcases hp with rfl | rfl | rfl
    · trivial
    · trivial
    · exact hflat _
  · refine hsub _
      (by simp only [Obj.keys, Principal.items, List.map_cons, List.map_nil]; decide) ?_
    intro p hp
    simp only [Principal.items, List.mem_cons, List.not_mem_nil, or_false] at hp
    rcases hp with rfl | rfl | rfl | rfl | rfl
    · trivial
    · trivial
    · exact hflat _
    · exact hflat _
    · exact hflat _
  · refine hsub _
      (by simp only [Obj.keys, Classification.items, List.map_cons, List.map_nil]; decide) ?_
    simp [Classification.items, Value.WellFormed, Value.All]
  · exact ho
  · refine hsub _
      (by simp only [Obj.keys, IntegrityMetadata.items, List.map_cons, List.map_nil]; decide) ?_
    intro p hp
    simp only [IntegrityMetadata.items, List.mem_cons, List.not_mem_nil, or_false] at hp
    rcases hp with rfl | rfl | rfl
    · trivial
    · exact hflat _
    · exact hflat _

/-- A payload that fits inside the event object fits on its own. -/
theorem fits_payload {e : EventEnvelope} {o : Obj} (h : Fits .default 0 (.dict (e.items o))) :
    Fits .default 0 (.dict o) := by
  have hmem : (lit "payload", Value.dict o) ∈ e.items o := by simp [EventEnvelope.items]
  exact Fits.mono _ (Nat.zero_le 1) (((fits_dict _).mp h).2.2 _ hmem)

/-- What is written parses to the event with its payload dumped and in key order. -/
theorem parseEvent_of_serializeEvent {e : EventEnvelope} {b : Bytes}
    (h : serializeEvent P e = .ok b) :
    ∃ (o : Obj) (p : Payload), P.dumpPayload e.payload.items = .ok o ∧
      (Value.dict o).sortKeys = .dict p.items ∧ (Value.dict o).KeysSurrogateFree ∧
      parseEvent P b = .ok (e.withPayload p) := by
  obtain ⟨o, ho, hfits, hb⟩ := serializeEvent_eq_ok.mp h
  have hfree := textsSurrogateFree_of_dumpBytes hb
  have hwo : (Value.dict o).WellFormed := P.dumpPayload_wellFormed _ _ e.payload.wellFormed ho
  -- the sorted payload is a payload
  obtain ⟨kvs, hkvs⟩ : ∃ kvs, (Value.dict o).sortKeys = .dict kvs := ⟨_, Value.sortKeys_dict o⟩
  let p : Payload :=
    { items := kvs
      wellFormed := by rw [← hkvs]; exact Value.wellFormed_sortKeys.mpr hwo
      fits := by rw [← hkvs, fits_sortKeys]; exact fits_payload hfits }
  refine ⟨o, p, ho, hkvs, ?_, ?_⟩
  · have hmem : (lit "payload", Value.dict o) ∈ e.items o := by simp [EventEnvelope.items]
    have hpayload : (Value.dict o).TextsSurrogateFree := ((Value.all_dict _).mp hfree).2 _ hmem
    exact hpayload.keys
  · rw [parseEvent_eq_ok, eventFromJson_eq_ok]
    refine ⟨_, loads_dumpBytes keepsObjects_strictHooks (items_wellFormed e hwo) ?_ hb,
      modelValidate_items hfree hkvs⟩
    have hheight := hfits.height_le
    have hlimit := P.recursionLimit_ge
    simp only [JsonLimits.default, DEFAULT_JSON_MAX_DEPTH, Nat.zero_add] at hheight
    simp only [strictHooks]
    omega

theorem withPayload_canonical {e : EventEnvelope} {o : Obj} {p : Payload}
    (hp : (Value.dict o).sortKeys = .dict p.items) (hk : (Value.dict o).KeysSurrogateFree) :
    (e.withPayload p).Canonical where
  sorted := by
    change (Value.dict p.items).sortKeys = .dict p.items
    rw [← hp, Value.sortKeys_idem]
  keys := by
    change (Value.dict p.items).KeysSurrogateFree
    rw [← hp]
    exact Value.keysSurrogateFree_sortKeys.mpr hk

/-- On canonical events writing and parsing are inverse. -/
theorem EventEnvelope.Canonical.parseEvent {e : EventEnvelope} (hc : e.Canonical) {b : Bytes}
    (h : serializeEvent P e = .ok b) : parseEvent P b = .ok e := by
  obtain ⟨o, p, ho, hp, -, hparse⟩ := parseEvent_of_serializeEvent h
  rw [hc.dumpPayload] at ho
  obtain rfl := Except.ok.inj ho
  have hpe : p = e.payload := Payload.ext (Value.dict.inj (hp.symm.trans hc.sorted))
  rw [hparse, hpe]
  rfl

/-- An event that reappears from its own bytes is canonical. -/
theorem canonical_of_parseEvent {e : EventEnvelope} {b : Bytes} (h : serializeEvent P e = .ok b)
    (hparse : parseEvent P b = .ok e) : e.Canonical := by
  obtain ⟨o, p, -, hp, hk, hparse'⟩ := parseEvent_of_serializeEvent h
  rw [hparse] at hparse'
  have hcanon := withPayload_canonical (e := e) hp hk
  rwa [← Except.ok.inj hparse'] at hcanon

theorem newline_notMem_serializeEvent {e : EventEnvelope} {b : Bytes}
    (h : serializeEvent P e = .ok b) : newline ∉ b := by
  obtain ⟨o, -, -, hb⟩ := serializeEvent_eq_ok.mp h
  exact newline_notMem_dumpBytes hb

/-- Canonical events are determined by their bytes. -/
theorem serializeEvent_injective {e e' : EventEnvelope} (hc : e.Canonical) (hc' : e'.Canonical)
    {b : Bytes} (h : serializeEvent P e = .ok b) (h' : serializeEvent P e' = .ok b) : e = e' := by
  have hp := hc.parseEvent h
  rw [hc'.parseEvent h'] at hp
  exact (Except.ok.inj hp).symm

end ActionLineage
