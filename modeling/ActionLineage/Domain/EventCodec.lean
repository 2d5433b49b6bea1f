import ActionLineage.Domain.Events
import ActionLineage.Py.JsonLoaded

/-!
# Validating the dump of an event gives the event back

The document a journal line decodes to is the event object with every dict in key order. Each
reader of the event model is therefore applied to `(json x).sortKeys`, and each has one lemma:
it returns `x`, provided the texts can be encoded (a document that was written can be).
-/

namespace ActionLineage

open Py

variable {P : Platform}

/-! ## Fields of a sorted object -/

theorem readFields_sortKeys {fields : List Str} {kvs : Obj}
    (h : (Obj.keys kvs).all (fun k => fields.contains k) = true) :
    readFields fields (Value.dict kvs).sortKeys
      = some (sortPairs (kvs.map fun p => (p.1, p.2.sortKeys))) := by
  have hperm : (Obj.keys (sortPairs (kvs.map fun p => (p.1, p.2.sortKeys)))).Perm
      (Obj.keys kvs) := by
    have := (sortPairs_perm (kvs.map fun p => (p.1, p.2.sortKeys))).map Prod.fst
    rwa [Value.keys_map_snd kvs Value.sortKeys] at this
  have hall : (Obj.keys (sortPairs (kvs.map fun p => (p.1, p.2.sortKeys)))).all
      (fun k => fields.contains k) = true := by
    rw [List.all_eq_true] at h ⊢
    exact fun k hk => h k (hperm.mem_iff.mp hk)
  rw [Value.sortKeys_dict, readFields, if_pos hall]

theorem field_sortKeys {kvs : Obj} (hn : (Obj.keys kvs).Nodup) {k : Str} {v : Value}
    (h : Obj.get? kvs k = some v) :
    Obj.get? (sortPairs (kvs.map fun p => (p.1, p.2.sortKeys))) k = some v.sortKeys := by
  rw [Value.get?_sortKeys hn, h]
  rfl

/-- Dicts that differ in their order only agree on every member. -/
theorem member_eq_of_sortKeys {a b : Obj} (ha : (Value.dict a).WellFormed)
    (hb : (Value.dict b).WellFormed) (h : (Value.dict a).sortKeys = (Value.dict b).sortKeys) {k : Str}
    {v w : Value} (hv : a.get? k = some v) (hw : b.get? k = some w) : v.sortKeys = w.sortKeys := by
  rw [Value.sortKeys_dict, Value.sortKeys_dict, Value.dict.injEq] at h
  have hva := field_sortKeys ((Value.all_dict a).mp ha).1 hv
  have hwb := field_sortKeys ((Value.all_dict b).mp hb).1 hw
  rw [h] at hva
  exact Option.some.inj (hva.symm.trans hwb)

/-- Documents written as the same bytes agree on every member. -/
theorem member_eq_of_dumpBytes {a b : Obj} (ha : (Value.dict a).WellFormed)
    (hb : (Value.dict b).WellFormed) {doc : Bytes} (hdoc : dumpBytes (.dict a) = .ok doc)
    (hdoc' : dumpBytes (.dict b) = .ok doc) {k : Str} {v w : Value} (hv : a.get? k = some v)
    (hw : b.get? k = some w) : v.sortKeys = w.sortKeys :=
  member_eq_of_sortKeys ha hb (sortKeys_eq_of_dumpBytes ha hb hdoc hdoc') hv hw

theorem member_surrogateFree {kvs : Obj} (h : (Value.dict kvs).TextsSurrogateFree) {k : Str}
    {v : Value} (hv : Obj.get? kvs k = some v) : v.TextsSurrogateFree :=
  ((Value.all_dict kvs).mp h).2 (k, v) (Obj.mem_of_get? hv)

theorem readText_str {t : Text} (h : (Value.str t.val).TextsSurrogateFree) :
    readText P (Value.str t.val).sortKeys = some t := by
  have hok : P.strOk t.val = true := P.strOk_of_surrogateFree _ h
  simp only [Value.sortKeys, readText, ne_eq, t.property, not_false_eq_true, hok, and_self,
    dite_true]

theorem readOptText_optText {t : Option Text} (h : (optText t).TextsSurrogateFree) :
    readOptText P (some (optText t).sortKeys) = some t := by
  cases t with
  | none => rfl
  | some t =>
    have := readText_str (P := P) h
    simp only [optText, Value.sortKeys] at this ⊢
    simp only [readOptText, this, Option.map_some]

section Fields

variable {kvs : Obj} {k : Str}

theorem textField (hn : (Obj.keys kvs).Nodup) {t : Text} (hfree : (Value.dict kvs).TextsSurrogateFree)
    (h : Obj.get? kvs k = some (.str t.val)) :
    (Obj.get? (sortPairs (kvs.map fun p => (p.1, p.2.sortKeys))) k).bind (readText P) = some t := by
  rw [field_sortKeys hn h, Option.bind_some, readText_str (member_surrogateFree hfree h)]

theorem optTextField (hn : (Obj.keys kvs).Nodup) {t : Option Text} (hfree : (Value.dict kvs).TextsSurrogateFree)
    (h : Obj.get? kvs k = some (optText t)) :
    readOptText P (Obj.get? (sortPairs (kvs.map fun p => (p.1, p.2.sortKeys))) k) = some t := by
  rw [field_sortKeys hn h, readOptText_optText (member_surrogateFree hfree h)]

end Fields

/-! ## One lemma for each model -/

theorem readSource_json {s : Source} (h : s.json.TextsSurrogateFree) :
    readSource P s.json.sortKeys = some s := by
  have hn : (Obj.keys s.items).Nodup := by
    simp only [Obj.keys, Source.items, List.map_cons, List.map_nil]
    decide
  rw [readSource, Source.json, readFields_sortKeys rfl]
  simp only [Option.bind_eq_bind, Option.bind_some,
    textField (P := P) hn h (k := lit "component") (t := s.component) rfl,
    textField (P := P) hn h (k := lit "instance_id") (t := s.instanceId) rfl,
    textField (P := P) hn h (k := lit "version") (t := s.version) rfl]

theorem readCorrelation_json {c : Correlation} (h : c.json.TextsSurrogateFree) :
    readCorrelation P c.json.sortKeys = some c := by
  have hn : (Obj.keys c.items).Nodup := by
    simp only [Obj.keys, Correlation.items, List.map_cons, List.map_nil]
    decide
  rw [readCorrelation, Correlation.json, readFields_sortKeys rfl]
  simp only [Option.bind_eq_bind, Option.bind_some,
    textField (P := P) hn h (k := lit "trace_id") (t := c.traceId) rfl,
    textField (P := P) hn h (k := lit "run_id") (t := c.runId) rfl,
    optTextField (P := P) hn h (k := lit "span_id") (t := c.spanId) rfl,
    optTextField (P := P) hn h (k := lit "session_id") (t := c.sessionId) rfl]

theorem readCausality_json {c : Causality} (h : c.json.TextsSurrogateFree) :
    readCausality P c.json.sortKeys = some c := by
  have hn : (Obj.keys c.items).Nodup := by
    simp only [Obj.keys, Causality.items, List.map_cons, List.map_nil]
    decide
  have sequence : readNatural P (Value.int c.sequence).sortKeys = some c.sequence := by
    simp [readNatural, Value.sortKeys, P.parseInt_int]
  rw [readCausality, Causality.json, readFields_sortKeys rfl]
  simp only [Option.bind_eq_bind, Option.bind_some,
    textField (P := P) hn h (k := lit "root_event_id") (t := c.rootEventId) rfl,
    field_sortKeys hn (k := lit "sequence") (v := .int c.sequence) rfl, sequence,
    optTextField (P := P) hn h (k := lit "parent_event_id") (t := c.parentEventId) rfl]

theorem readPrincipal_json {p : Principal} (h : p.json.TextsSurrogateFree) :
    readPrincipal P p.json.sortKeys = some p := by
  have hn : (Obj.keys p.items).Nodup := by
    simp only [Obj.keys, Principal.items, List.map_cons, List.map_nil]
    decide
  rw [readPrincipal, Principal.json, readFields_sortKeys rfl]
  simp only [Option.bind_eq_bind, Option.bind_some,
    textField (P := P) hn h (k := lit "principal_id") (t := p.principalId) rfl,
    field_sortKeys hn (k := lit "principal_type") (v := .str p.principalType.text) rfl,
    Value.sortKeys, readEnum, enumOf_principalType,
    optTextField (P := P) hn h (k := lit "on_behalf_of") (t := p.onBehalfOf) rfl,
    optTextField (P := P) hn h (k := lit "model_id") (t := p.modelId) rfl,
    optTextField (P := P) hn h (k := lit "credential_id") (t := p.credentialId) rfl]

theorem readClassification_json (c : Classification) :
    readClassification c.json.sortKeys = some c := by
  have hn : (Obj.keys c.items).Nodup := by
    simp only [Obj.keys, Classification.items, List.map_cons, List.map_nil]
    decide
  rw [readClassification, Classification.json, readFields_sortKeys rfl]
  simp only [Option.bind_eq_bind, Option.bind_some,
    field_sortKeys hn (k := lit "sensitivity") (v := .str c.sensitivity.text) rfl,
    field_sortKeys hn (k := lit "trust") (v := .str c.trust.text) rfl,
    Value.sortKeys, readEnumOr, readEnum, enumOf_sensitivity, enumOf_trustLevel]

theorem readIntegrity_json {i : IntegrityMetadata} (h : i.json.TextsSurrogateFree) :
    readIntegrity P (some i.json.sortKeys) = some i := by
  have hn : (Obj.keys i.items).Nodup := by
    simp only [Obj.keys, IntegrityMetadata.items, List.map_cons, List.map_nil]
    decide
  rw [readIntegrity, IntegrityMetadata.json, readFields_sortKeys rfl]
  simp only [Option.bind_eq_bind, Option.bind_some,
    field_sortKeys hn (k := lit "canonicalization") (v := .str i.canonicalization) rfl,
    Value.sortKeys, readCanonicalization,
    optTextField (P := P) hn h (k := lit "previous_event_hash") (t := i.previousEventHash) rfl,
    optTextField (P := P) hn h (k := lit "event_hash") (t := i.eventHash) rfl]

/-- A payload that is already within the limits and has no duplicate keys is kept as it is. -/
theorem requireJsonPayload_eq {kvs : Obj} (hw : (Value.dict kvs).WellFormed)
    (hf : Fits .default 0 (.dict kvs)) : requireJsonPayload kvs = some ⟨kvs, hw, hf⟩ := by
  have hvalid : validateJsonValue .default 0 (.dict kvs) = .ok () := (walkJson_eq_ok _ _).mpr hf
  have hfreeze := freezeJsonValue_eq_self hw
  rw [requireJsonPayload, dif_pos hvalid, Option.some.injEq]
  apply Payload.ext
  exact Value.dict.inj hfreeze

theorem readTimestamp_isoZ (d : DateTime) :
    readTimestamp P (some (.str d.isoZ)) = .ok (some d) := by
  simp only [readTimestamp, Option.bind_some, P.parseDatetime_isoZ, DateTime.ofLocal_zero]

/-! ## The envelope -/

/-- The event with another payload. -/
def EventEnvelope.withPayload (e : EventEnvelope) (p : Payload) : EventEnvelope :=
  { e with payload := p }

theorem EventEnvelope.keys_nodup (e : EventEnvelope) (o : Obj) : (Obj.keys (e.items o)).Nodup := by
  simp only [Obj.keys, EventEnvelope.items, List.map_cons, List.map_nil]
  decide

/-- The document of an event, in key order, validates to the event with the payload in key order. -/
theorem modelValidate_items {e : EventEnvelope} {o : Obj} {p : Payload}
    (hfree : (Value.dict (e.items o)).TextsSurrogateFree)
    (hp : (Value.dict o).sortKeys = .dict p.items) :
    modelValidate P (Value.dict (e.items o)).sortKeys = .ok (e.withPayload p) := by
  have hn := e.keys_nodup o
  have occurred : getField (Value.dict (e.items o)).sortKeys (lit "occurred_at")
      = some (.str e.occurredAt.isoZ) := by
    rw [Value.sortKeys_dict]
    exact field_sortKeys hn (k := lit "occurred_at") (v := .str e.occurredAt.isoZ) rfl
  have observed : getField (Value.dict (e.items o)).sortKeys (lit "observed_at")
      = some (.str e.observedAt.isoZ) := by
    rw [Value.sortKeys_dict]
    exact field_sortKeys hn (k := lit "observed_at") (v := .str e.observedAt.isoZ) rfl
  have payload : readPayload (some (.dict p.items)) = some p :=
    requireJsonPayload_eq p.wellFormed p.fits
  have version : specVersionOk (some (Value.str SPEC_VERSION).sortKeys) = true := by
    simp [specVersionOk, Value.sortKeys]
  have hread : readEvent P (Value.dict (e.items o)).sortKeys (some e.occurredAt)
      (some e.observedAt) = some (e.withPayload p) := by
    rw [readEvent, readFields_sortKeys rfl]
    simp only [Option.bind_eq_bind, Option.bind_some,
      field_sortKeys hn (k := lit "spec_version") (v := .str SPEC_VERSION) rfl, version, if_true,
      textField (P := P) hn hfree (k := lit "event_id") (t := e.eventId) rfl,
      textField (P := P) hn hfree (k := lit "event_type") (t := e.eventType) rfl,
      field_sortKeys hn (k := lit "source") (v := e.source.json) rfl,
      readSource_json (P := P) (member_surrogateFree hfree (k := lit "source") rfl),
      field_sortKeys hn (k := lit "correlation") (v := e.correlation.json) rfl,
      readCorrelation_json (P := P) (member_surrogateFree hfree (k := lit "correlation") rfl),
      field_sortKeys hn (k := lit "causality") (v := e.causality.json) rfl,
      readCausality_json (P := P) (member_surrogateFree hfree (k := lit "causality") rfl),
      field_sortKeys hn (k := lit "principal") (v := e.principal.json) rfl,
      readPrincipal_json (P := P) (member_surrogateFree hfree (k := lit "principal") rfl),
      field_sortKeys hn (k := lit "classification") (v := e.classification.json) rfl,
      readClassification_json,
      field_sortKeys hn (k := lit "payload") (v := .dict o) rfl, hp, payload,
      field_sortKeys hn (k := lit "integrity") (v := e.integrity.json) rfl,
      readIntegrity_json (P := P) (member_surrogateFree hfree (k := lit "integrity") rfl),
      dif_pos e.causalityOk]
    rfl
  simp only [modelValidate, occurred, observed, readTimestamp_isoZ, bind, Except.bind, hread]

end ActionLineage
