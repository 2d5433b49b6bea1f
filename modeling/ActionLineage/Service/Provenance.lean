import ActionLineage.Domain.SecondPass
import ActionLineage.Evidence.Durability
import ActionLineage.Service.Workers

/-!
# Who an event comes from

Whatever is sent to the service and in whatever order its workers do their parts, an event gets into
the journal only by a request of an authenticated principal that may write events and rebuild
projections; its payload says so in the server's own words, after redaction; and it is classified as
trusted only if that principal may configure the service (`ingested_events_attributed`).

Redaction and the detour through JSON keep the statement of provenance an object. The argument needs
its keys to be encodable, which the fingerprint has checked of everything else in the payload.
-/

namespace ActionLineage

open Py

variable {P : Platform}

/-! ## Through the journal -/

/-- The members of a payload are redacted one by one. -/
theorem persisted_member {event e : EventEnvelope} {prev : Option Text} {line : Bytes}
    (hprep : prepareEventForAppend P (.default P) event prev = .ok (e, line))
    (hkeys : (Value.dict event.payload.items).KeysSurrogateFree) {k : Str} {v : Value}
    (hv : Obj.get? event.payload.items k = some v) :
    ∃ w, Redacts P (.default P) [lit "payload", P.lower k] v w ∧
      Obj.get? e.payload.items k = some w.sortKeys := by
  obtain ⟨redacted, hash, hfrom, -, -, -, rfl, -⟩ := prepared_cases hprep
  obtain ⟨o, w, hdump, hred, -, hitems⟩ := hfrom.payload
  have hsame : o = event.payload.items := by
    have hself := P.dumpPayload_eq event.payload.items hkeys
    exact Except.ok.inj (hdump.symm.trans hself)
  subst hsame
  have hplain : plainName (lit "payload") = true := by decide
  rcases redacts_shape hred with ⟨hsensitive, -⟩ | ⟨-, out, rfl, hout⟩
  · have hnot := isSensitive_plainName (P := P) [] hplain
    rw [List.nil_append] at hnot
    rw [hnot] at hsensitive
    cases hsensitive
  · obtain ⟨w, hw, hredacts⟩ := get?_of_redactsMembers hout hv
    have hnodup : (Obj.keys out).Nodup := by
      rw [keys_of_redactsMembers hout]
      exact ((Value.all_dict _).mp event.payload.wellFormed).1
    rw [lower_plainName hplain] at hredacts
    refine ⟨w, hredacts, ?_⟩
    rw [Value.sortKeys_dict] at hitems
    show Obj.get? redacted.payload.items k = _
    rw [← Value.dict.inj hitems]
    exact field_sortKeys hnodup hw

/-- No default pattern matches within one of the words. -/
theorem redactText_trust (t : TrustLevel) : redactText (.default P) t.text = .ok t.text := by
  apply redactText_word
  cases t <;> rfl

/-- A trust level that is read is the default or stands in the object. -/
theorem readClassification_trust {v : Value} {c : Classification} (h : readClassification v = some c) :
    ∃ o, v = .dict o ∧
      readEnumOr .unknown TrustLevel.all TrustLevel.text (Obj.get? o (lit "trust"))
        = some c.trust := by
  obtain ⟨o, ho, h⟩ := Option.bind_eq_some_iff.mp h
  obtain ⟨sensitivity, -, h⟩ := Option.bind_eq_some_iff.mp h
  obtain ⟨trust, htrust, h⟩ := Option.bind_eq_some_iff.mp h
  obtain rfl := Option.some.inj h
  exact ⟨o, (readFields_eq_some.mp ho).1, htrust⟩

/-- Redaction leaves the trust level. -/
theorem persisted_trust {event e : EventEnvelope} {prev : Option Text} {line : Bytes}
    (hprep : prepareEventForAppend P (.default P) event prev = .ok (e, line)) :
    e.classification.trust = event.classification.trust := by
  obtain ⟨redacted, hash, hfrom, -, -, -, rfl, -⟩ := prepared_cases hprep
  obtain ⟨w, hred, hread⟩ := hfrom.classification
  obtain ⟨o, hfields, hrest⟩ := Option.bind_eq_some_iff.mp hread
  have hnodup : (Obj.keys event.classification.items).Nodup := by
    show [lit "sensitivity", lit "trust"].Nodup
    decide
  obtain ⟨w', hw', hredacts⟩ := redacted_object (by decide) hnodup hred hfields
    (show Obj.get? event.classification.items (lit "trust")
      = some (.str event.classification.trust.text) from rfl)
  obtain ⟨sensitivity, -, hrest⟩ := Option.bind_eq_some_iff.mp hrest
  obtain ⟨trust, htrust, hrest⟩ := Option.bind_eq_some_iff.mp hrest
  rw [hw'] at htrust
  show redacted.classification.trust = _
  rw [← Option.some.inj hrest]
  -- the member is read as a text, and that text is the redacted one
  have hread' : readEnum TrustLevel.all TrustLevel.text w'.sortKeys = some trust := htrust
  unfold readEnum at hread'
  split at hread'
  · rename_i s hs
    obtain rfl := eq_str_of_sortKeys hs
    have hsame := redactText_of_redacts hredacts
    rw [redactText_trust] at hsame
    rw [← Except.ok.inj hsame, enumOf_trustLevel] at hread'
    exact (Option.some.inj hread').symm
  · cases hread'

/-! ## Through the import -/

/-- A fingerprint exists of a payload with encodable keys only, the two members aside that it leaves
out. -/
theorem encodable_of_fingerprint {record : EvidenceRecord} {n : EvidenceNormalizer} {fingerprint : Str}
    (h : recordIdempotencyFingerprint P record n = .ok fingerprint) :
    ∀ p ∈ record.payload, p.1 ≠ lit "ingest" → p.1 ≠ lit "ingested_by" →
      SurrogateFree p.1 ∧ p.2.KeysSurrogateFree := by
  intro p hp hingest hby
  obtain ⟨b, hbytes, -⟩ := bind_eq_ok.mp h
  have hdumpable := exists_dumpBytes_iff.mp ⟨b, deterministicJsonBytes_eq_ok.mp hbytes⟩
  have hpayload := member_surrogateFree hdumpable.texts (k := lit "payload") rfl
  obtain ⟨hkeys, hmembers⟩ := (Value.all_dict _).mp hpayload
  have hmem : p ∈ popKey (if isServiceIngestionProvenance
      (Obj.get? record.payload (lit "ingested_by")) then popKey record.payload (lit "ingested_by")
      else record.payload) (lit "ingest") := by
    refine List.mem_filter.mpr ⟨?_, by simpa using hingest⟩
    split
    · exact List.mem_filter.mpr ⟨hp, by simpa using hby⟩
    · exact hp
  exact ⟨hkeys p.1 (List.mem_map_of_mem hmem), Value.TextsSurrogateFree.keys (hmembers p hmem)⟩

/-- An object with encodable keys stays one under `d[k] = v`. -/
theorem keysSurrogateFree_set {kvs : Obj} {k : Str} {v : Value} (hk : SurrogateFree k)
    (hv : v.KeysSurrogateFree)
    (h : ∀ p ∈ kvs, p.1 ≠ k → SurrogateFree p.1 ∧ p.2.KeysSurrogateFree) :
    (Value.dict (Obj.set kvs k v)).KeysSurrogateFree := by
  refine (Value.all_dict _).mpr ⟨fun key hkey => ?_, fun p hp => ?_⟩
  · obtain ⟨p, hp, rfl⟩ := List.mem_map.mp hkey
    rcases Obj.mem_set.mp hp with rfl | ⟨hp, hne⟩
    · exact hk
    · exact (h p hp hne).1
  · rcases Obj.mem_set.mp hp with rfl | ⟨hp, hne⟩
    · exact hv
    · exact (h p hp hne).2

theorem wellFormed_set {kvs : Obj} {k : Str} {v : Value} (h : (Value.dict kvs).WellFormed)
    (hv : v.WellFormed) : (Value.dict (Obj.set kvs k v)).WellFormed :=
  (JsonObject.set ⟨kvs, h⟩ k ⟨v, hv⟩).wellFormed

/-- A validated payload is what was validated. -/
theorem items_of_requireJsonPayload {kvs : Obj} {payload : Payload}
    (hw : (Value.dict kvs).WellFormed) (h : requireJsonPayload kvs = some payload) :
    payload.items = kvs := by
  simp only [requireJsonPayload] at h
  split at h
  · obtain rfl := Option.some.inj h
    exact Value.dict.inj (freezeJsonValue_eq_self hw)
  · cases h

theorem ingestMetadata_keys (record : EvidenceRecord) (fingerprint : Str) :
    (ingestMetadata record fingerprint).KeysSurrogateFree ∧
      (ingestMetadata record fingerprint).WellFormed := by
  have hkeys : ∀ k ∈ [lit "fingerprint_version", lit "idempotency_key", lit "record_fingerprint",
      lit "source_kind"], SurrogateFree k := by
    intro k hk
    apply surrogateFree_of_all
    fin_cases hk <;> rfl
  refine ⟨(Value.all_dict _).mpr ⟨hkeys, ?_⟩, (Value.all_dict _).mpr ⟨?_, ?_⟩⟩
  · simp [Value.All]
  · show [lit "fingerprint_version", lit "idempotency_key", lit "record_fingerprint",
      lit "source_kind"].Nodup
    decide
  · simp [Value.All]

/-- What the server says of a request arrives in the journal, redacted. -/
theorem ImportedFrom.provenance {n : EvidenceNormalizer} {record : EvidenceRecord} {e : EventEnvelope}
    (h : ImportedFrom P (.default P) n record e) {provenance : JsonObject}
    (hkeys : provenance.value.val.KeysSurrogateFree)
    (hrecord : Obj.get? record.payload (lit "ingested_by") = some (.dict provenance.items)) :
    ∃ w, Redacts P (.default P) [lit "payload", lit "ingested_by"] (.dict provenance.items) (.dict w) ∧
      Obj.get? e.payload.items (lit "ingested_by") = some (Value.dict w).sortKeys := by
  obtain ⟨normalizer, fingerprint, event, prev, line, -, hfingerprint, hproduced, hprep⟩ := h
  obtain ⟨hmetaKeys, hmetaWell⟩ := ingestMetadata_keys record fingerprint
  have hitems : event.payload.items = payloadWithIngestMetadata record fingerprint :=
    items_of_requireJsonPayload (wellFormed_set record.wellFormed hmetaWell) hproduced.payload
  have hmember : Obj.get? event.payload.items (lit "ingested_by") = some (.dict provenance.items) := by
    rw [hitems, payloadWithIngestMetadata, Obj.get?_set, if_neg (by decide)]
    exact hrecord
  have hencodable : (Value.dict event.payload.items).KeysSurrogateFree := by
    rw [hitems]
    refine keysSurrogateFree_set (surrogateFree_of_all rfl) hmetaKeys fun p hp hne => ?_
    by_cases hby : p.1 = lit "ingested_by"
    · -- a dict holds the key once
      have hnodup := ((Value.all_dict _).mp record.wellFormed).1
      have hvalue : Obj.get? record.payload (lit "ingested_by") = some p.2 :=
        (Obj.get?_eq_some hnodup).mpr (by rw [← hby]; exact hp)
      rw [hrecord] at hvalue
      rw [← Option.some.inj hvalue, hby]
      exact ⟨surrogateFree_of_all rfl, hkeys⟩
    · exact encodable_of_fingerprint hfingerprint p hp hne hby
  have hplain : plainName (lit "ingested_by") = true := by decide
  obtain ⟨w, hredacts, hw⟩ := persisted_member hprep hencodable hmember
  rcases redacts_shape hredacts with ⟨hsensitive, -⟩ | ⟨-, out, rfl, -⟩
  · have hnot := isSensitive_plainName (P := P) [lit "payload"] hplain
    rw [show [lit "payload"] ++ [P.lower (lit "ingested_by")]
      = [lit "payload", P.lower (lit "ingested_by")] from rfl] at hnot
    rw [hnot] at hsensitive
    cases hsensitive
  · rw [lower_plainName hplain] at hredacts
    exact ⟨out, hredacts, hw⟩

/-- The trust level is the record's, or the normalizer's where the record has none. -/
theorem ImportedFrom.trust {n : EvidenceNormalizer} {record : EvidenceRecord} {e : EventEnvelope}
    (h : ImportedFrom P (.default P) n record e) :
    e.classification.trust = (record.classification.getD n.classification).trust := by
  obtain ⟨normalizer, fingerprint, event, prev, line, hsame, -, hproduced, hprep⟩ := h
  rw [persisted_trust hprep, hproduced.classification, ← hsame.classification]

namespace Service

/-! ## Through the request -/

theorem JsonObject.get?_val (o : JsonObject) (key : Str) :
    (o.get? key).map Subtype.val = Obj.get? o.items key := by
  unfold JsonObject.get?
  rw [Option.map_map]
  exact Option.attach_map_subtype_val _

theorem object?_eq_some {o x : JsonObject} {key : Str} :
    o.object? key = some x ↔ Obj.get? o.items key = some (.dict x.items) := by
  rw [← JsonObject.get?_val]
  unfold JsonObject.object?
  cases o.get? key with
  | none => simp
  | some v =>
    obtain ⟨v, hv⟩ := v
    obtain ⟨items, hitems⟩ := x
    cases v with
    | dict kvs => simp [JsonObject.ofValue?]
    | _ => simp [JsonObject.ofValue?]

/-- A classification that is read as trusted says so. -/
theorem classificationIsTrusted_of_read {o : JsonObject} {v : Value} {c : Classification}
    (hfield : Obj.get? o.items (lit "classification") = some v)
    (hread : readClassification v = some c) (htrusted : c.trust = .trusted) :
    classificationIsTrusted o = true := by
  obtain ⟨items, rfl, htrust⟩ := readClassification_trust hread
  have hobject : o.object? (lit "classification")
      = some ⟨items, JsonObject.wellFormed_of_get? hfield⟩ := object?_eq_some.mpr hfield
  rw [htrusted] at htrust
  unfold readEnumOr at htrust
  split at htrust
  · cases Option.some.inj htrust
  · rename_i w hw
    unfold readEnum at htrust
    split at htrust
    · unfold classificationIsTrusted
      simp only [hobject, hw]
      have hsame := List.find?_some htrust
      exact beq_iff_eq.mpr (beq_iff_eq.mp hsame).symm
    · cases htrust

/-- The record of a request carries the server's statement. -/
theorem recordFromRequest_eq_ok {acceptsPayload : Obj → Bool} {provenance : JsonObject}
    {v : JsonValue} {record : EvidenceRecord}
    (h : recordFromRequest P acceptsPayload provenance v = .ok record) :
    Obj.get? record.payload (lit "ingested_by") = some (.dict provenance.items) ∧
      (∀ c, record.classification = some c → c.trust = .trusted →
        (JsonObject.ofValue? v).any classificationIsTrusted = true) := by
  unfold recordFromRequest at h
  split at h
  · cases h
  rename_i o ho
  split at h
  · cases h
  rename_i payload hpayload
  have hread := validated_eq_ok.mp (mapError_eq_ok.mp h)
  obtain ⟨fields, hfields, hread⟩ := Option.bind_eq_some_iff.mp hread
  obtain ⟨key, -, hread⟩ := Option.bind_eq_some_iff.mp hread
  obtain ⟨eventType, -, hread⟩ := Option.bind_eq_some_iff.mp hread
  obtain ⟨stated, hstated, hread⟩ := Option.bind_eq_some_iff.mp hread
  obtain ⟨kind, -, hread⟩ := Option.bind_eq_some_iff.mp hread
  obtain ⟨sortKey, -, hread⟩ := Option.bind_eq_some_iff.mp hread
  obtain ⟨source, -, hread⟩ := Option.bind_eq_some_iff.mp hread
  obtain ⟨principal, -, hread⟩ := Option.bind_eq_some_iff.mp hread
  obtain ⟨classification, hclassification, hread⟩ := Option.bind_eq_some_iff.mp hread
  split at hread
  · obtain rfl := Option.some.inj hread
    have hsame := object?_eq_some.mp hstated
    rw [show (JsonObject.set o (lit "payload") _).items = Obj.set o.items (lit "payload") _ from rfl,
      Obj.get?_set, if_pos rfl] at hsame
    constructor
    · show Obj.get? stated.items (lit "ingested_by") = _
      rw [← Value.dict.inj (Option.some.inj hsame)]
      show Obj.get? (Obj.set payload.items (lit "ingested_by") (.dict provenance.items)) _ = _
      rw [Obj.get?_set, if_pos rfl]
    · intro c hc htrusted
      have hfield : Obj.get? fields (lit "classification")
          = Obj.get? o.items (lit "classification") := by
        obtain ⟨hdict, -⟩ := readFields_eq_some.mp hfields
        rw [← Value.dict.inj hdict]
        show Obj.get? (Obj.set o.items (lit "payload") _) _ = _
        rw [Obj.get?_set, if_neg (by decide)]
      obtain rfl : classification = some c := hc
      rw [hfield] at hclassification
      rw [ho]
      show classificationIsTrusted o = true
      unfold readOptional at hclassification
      split at hclassification
      · cases hclassification
      · cases hclassification
      · rename_i w _ hw
        obtain ⟨c', hc', heq⟩ := Option.map_eq_some_iff.mp hclassification
        obtain rfl := Option.some.inj heq
        exact classificationIsTrusted_of_read hw hc' htrusted
  · cases hread

/-- The default classification of a request is trusted only if the body says so. -/
theorem normalizerFromRequest_trust {body : JsonObject} {principal : ServicePrincipal}
    {host : Surroundings} {n : EvidenceNormalizer}
    (h : normalizerFromRequest P body principal host = .ok n)
    (htrusted : n.classification.trust = .trusted) : classificationIsTrusted body = true := by
  obtain ⟨_, -, h⟩ := bind_eq_ok.mp h
  obtain ⟨_, -, h⟩ := bind_eq_ok.mp h
  obtain ⟨_, -, h⟩ := bind_eq_ok.mp h
  obtain ⟨_, -, h⟩ := bind_eq_ok.mp h
  obtain ⟨classification, hclassification, h⟩ := bind_eq_ok.mp h
  obtain rfl := Except.ok.inj h
  unfold modelOr at hclassification
  split at hclassification
  · rename_i o ho
    have hread := validated_eq_ok.mp (mapError_eq_ok.mp hclassification)
    exact classificationIsTrusted_of_read (object?_eq_some.mp ho) hread htrusted
  · obtain rfl := Option.some.inj (validated_eq_ok.mp (mapError_eq_ok.mp hclassification))
    cases htrusted

/-- Only a principal that may configure the service gets a request through that calls evidence
trusted. -/
theorem admin_of_trusted {body : JsonObject} {principal : ServicePrincipal}
    (h : rejectUnprivilegedTrustedClassification body principal = .ok ())
    (htrusted : classificationIsTrusted body = true ∨
      ∃ record ∈ (recordsOf body).getD [],
        (JsonObject.ofValue? record).any classificationIsTrusted = true) :
    principal.hasCapability .adminConfigure = true := by
  unfold rejectUnprivilegedTrustedClassification at h
  split at h
  · assumption
  · split at h
    · cases h
    · rename_i hnot
      exact absurd (by simpa [List.any_eq_true] using htrusted) hnot

/-- What a request was checked for when it comes to the import. -/
structure Cleared (principal : ServicePrincipal) (provenance : JsonObject) (n : EvidenceNormalizer)
    (records : List EvidenceRecord) : Prop where
  writes : principal.hasCapability .eventsWrite = true
  rebuilds : principal.hasCapability .projectionsRebuild = true
  provenance : ∀ record ∈ records,
    Obj.get? record.payload (lit "ingested_by") = some (.dict provenance.items)
  trust : ∀ record ∈ records, (record.classification.getD n.classification).trust = .trusted →
    principal.hasCapability .adminConfigure = true

theorem prepareIngest_cleared {acceptsPayload : Obj → Bool} {app : ServiceApp}
    {principal : ServicePrincipal} {request : IngestRequest} {host : Surroundings}
    {n : EvidenceNormalizer} {records : List EvidenceRecord}
    (h : prepareIngest P acceptsPayload app principal request host = .ok (n, records)) :
    Cleared principal (ingestedBy app principal request.requestId host) n records := by
  obtain ⟨_, hwrites, h⟩ := bind_eq_ok.mp h
  obtain ⟨_, hrebuilds, h⟩ := bind_eq_ok.mp h
  obtain ⟨_, -, h⟩ := bind_eq_ok.mp h
  obtain ⟨_, hreject, h⟩ := bind_eq_ok.mp h
  obtain ⟨normalizer, hnormalizer, h⟩ := bind_eq_ok.mp h
  obtain ⟨read, hread, h⟩ := bind_eq_ok.mp h
  obtain ⟨rfl, rfl⟩ := Prod.mk.inj (Except.ok.inj h)
  -- every record comes from one of the body
  have hrecords : ∀ record ∈ read, ∃ v ∈ (recordsOf request.body).getD [],
      recordFromRequest P acceptsPayload (ingestedBy app principal request.requestId host) v
        = .ok record := by
    unfold evidenceRecordsFromRequest at hread
    split at hread
    · cases hread
    · rename_i values hvalues
      rw [hvalues]
      exact fun record hrecord => exists_of_forall₂ (mapM_eq_ok.mp hread) hrecord
  refine ⟨requireCapability_eq_ok.mp hwrites, requireCapability_eq_ok.mp hrebuilds,
    fun record hrecord => ?_, fun record hrecord htrusted => ?_⟩
  · obtain ⟨v, -, hv⟩ := hrecords record hrecord
    exact (recordFromRequest_eq_ok hv).1
  · apply admin_of_trusted hreject
    cases hclassification : record.classification with
    | none =>
      rw [hclassification] at htrusted
      exact .inl (normalizerFromRequest_trust hnormalizer htrusted)
    | some c =>
      rw [hclassification] at htrusted
      obtain ⟨v, hmem, hv⟩ := hrecords record hrecord
      exact .inr ⟨v, hmem, (recordFromRequest_eq_ok hv).2 c hclassification htrusted⟩

theorem ingestedBy_keys (app : ServiceApp) (principal : ServicePrincipal) (requestId : Option Str)
    (host : Surroundings) : (ingestedBy app principal requestId host).value.val.KeysSurrogateFree := by
  have hvalues : ∀ v ∈ (ingestedBy app principal requestId host).items.map Prod.snd,
      v.KeysSurrogateFree := by
    intro v hv
    fin_cases hv <;> simp [Value.KeysSurrogateFree, Value.All, jsonText, jsonBool, jsonList]
    -- the texts of the roles
    rintro v role - - rfl
    trivial
  refine (Value.all_dict _).mpr ⟨fun k hk => surrogateFree_of_all ?_, fun p hp => ?_⟩
  · fin_cases hk <;> rfl
  · exact hvalues p.2 (List.mem_map_of_mem hp)

/-! ## Through a run -/

/-- The principal whose token the request carried was allowed to send the event, and the event says
that it did. -/
structure Attributed (P : Platform) (app : ServiceApp) (request : IngestRequest)
    (host : Surroundings) (principal : ServicePrincipal) (e : EventEnvelope) : Prop where
  authenticated : app.principal request.authorization = .ok principal
  writes : principal.hasCapability .eventsWrite = true
  rebuilds : principal.hasCapability .projectionsRebuild = true
  trust : e.classification.trust = .trusted → principal.hasCapability .adminConfigure = true
  stated : ∃ w, Redacts P (.default P) [lit "payload", lit "ingested_by"]
      (ingestedBy app principal request.requestId host).value.val (.dict w) ∧
    Obj.get? e.payload.items (lit "ingested_by") = some (Value.dict w).sortKeys

theorem Attributed.label {app : ServiceApp} {request : IngestRequest} {host : Surroundings}
    {principal : ServicePrincipal} {e : EventEnvelope}
    (h : Attributed P app request host principal e) :
    ingestionProvenance e = lit "service_authenticated" := by
  obtain ⟨w, -, hw⟩ := h.stated
  unfold ingestionProvenance
  rw [hw, Value.sortKeys_dict]

/-- The events that one request adds. -/
theorem ingestRecords_attributed (acceptsPayload : Obj → Bool) {app : ServiceApp}
    {principal : ServicePrincipal} {request : IngestRequest} (host : Surroundings)
    {content : Content} {es : List EventEnvelope}
    (hprincipal : app.principal request.authorization = .ok principal)
    (hv : Verified P content es) :
    let step := ingestRecords P acceptsPayload app principal request host content
    ∃ new, Verified P step.2 (es ++ new) ∧
      (∀ e ∈ new, Attributed P app request host principal e) ∧
      (new = [] → step.2 = content) ∧
      ∀ result, step.1 = .ok result → importedIds result.outcomes = new.map (·.eventId) ∧
        NamesEvents (es ++ new) result.outcomes := by
  intro step
  cases hprepare : prepareIngest P acceptsPayload app principal request host with
  | error failure =>
    have hstep : step = (.error failure, content) := by
      show ingestRecords P acceptsPayload app principal request host content = _
      rw [ingestRecords, hprepare]
    rw [hstep]
    exact ⟨[], by simpa using hv, by simp, fun _ => rfl, fun _ h => by cases h⟩
  | ok prepared =>
    obtain ⟨n, records⟩ := prepared
    have hcleared := prepareIngest_cleared hprepare
    obtain ⟨new, hnew, hfrom, hsame, hids⟩ := import_spec hv n records
    have hstep : step = (((importEvidenceBatchAtomically P (.default P) n content records).1.mapError
        .raised).map BatchImportResult.mk,
        (importEvidenceBatchAtomically P (.default P) n content records).2) := by
      show ingestRecords P acceptsPayload app principal request host content = _
      rw [ingestRecords, hprepare]
    rw [hstep]
    refine ⟨new.map Prod.snd, hnew, fun e he => ?_, fun hnil => ?_, fun result hresult => ?_⟩
    · obtain ⟨⟨record, e⟩, hp, rfl⟩ := List.mem_map.mp he
      obtain ⟨hrecord, himported⟩ := hfrom _ hp
      refine ⟨hprincipal, hcleared.writes, hcleared.rebuilds, fun htrusted => ?_,
        himported.provenance (ingestedBy_keys _ _ _ _) (hcleared.provenance record hrecord)⟩
      rw [himported.trust] at htrusted
      exact hcleared.trust record hrecord htrusted
    · exact hsame (List.map_eq_nil_iff.mp hnil)
    · obtain ⟨outcomes, houtcomes, rfl⟩ := map_eq_ok.mp hresult
      exact hids outcomes (mapError_eq_ok.mp houtcomes)

end Service

end ActionLineage
