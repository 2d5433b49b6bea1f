import ActionLineage.Domain.RedactionFacts

/-!
# Events that went through redaction

Persisting an event redacts its object, writes it, and reads it back as an event. `RedactedFrom`
says how the event that comes back relates to the one that went in, field by field: ids and hashes
are the redacted texts, the sequence is unchanged, and the other fields depend on the same fields
of the input only.

A field that redaction turns into a marker or a capture object no longer validates, so none of this
depends on which paths a policy calls sensitive or exempt.
-/

namespace ActionLineage

open Py

variable {P : Platform} {policy : RedactionPolicy}

/-! ## What a successful validation says -/

/-- Every field of the event is what its reader makes of the document. -/
structure ReadsEvent (P : Platform) (o : Obj) (e : EventEnvelope) : Prop where
  fields : (Obj.keys o).all (fun k => eventFields.contains k) = true
  eventId : (Obj.get? o (lit "event_id")).bind (readText P) = some e.eventId
  eventType : (Obj.get? o (lit "event_type")).bind (readText P) = some e.eventType
  occurredAt : readTimestamp P (Obj.get? o (lit "occurred_at")) = .ok (some e.occurredAt)
  observedAt : readTimestamp P (Obj.get? o (lit "observed_at")) = .ok (some e.observedAt)
  source : (Obj.get? o (lit "source")).bind (readSource P) = some e.source
  correlation : (Obj.get? o (lit "correlation")).bind (readCorrelation P) = some e.correlation
  causality : (Obj.get? o (lit "causality")).bind (readCausality P) = some e.causality
  principal : (Obj.get? o (lit "principal")).bind (readPrincipal P) = some e.principal
  classification :
    (Obj.get? o (lit "classification")).bind readClassification = some e.classification
  payload : readPayload (Obj.get? o (lit "payload")) = some e.payload
  integrity : readIntegrity P (Obj.get? o (lit "integrity")) = some e.integrity

theorem readFields_eq_some {fields : List Str} {v : Value} {o : Obj} :
    readFields fields v = some o ↔
      v = .dict o ∧ (Obj.keys o).all (fun k => fields.contains k) = true := by
  cases v with
  | dict kvs =>
    simp only [readFields]
    split
    · rename_i h
      simp only [Option.some.injEq, Value.dict.injEq]
      constructor
      · rintro rfl
        exact ⟨rfl, h⟩
      · exact fun h => h.1
    · rename_i h
      simp only [reduceCtorEq, Value.dict.injEq, false_iff, not_and]
      rintro rfl
      exact h
  | _ => simp [readFields]

theorem reads_of_modelValidate {v : Value} {e : EventEnvelope} (h : modelValidate P v = .ok e) :
    ∃ o, v = .dict o ∧ ReadsEvent P o e := by
  obtain ⟨occurredAt, hocc, h⟩ := bind_eq_ok.mp h
  obtain ⟨observedAt, hobs, h⟩ := bind_eq_ok.mp h
  cases hread : readEvent P v occurredAt observedAt with
  | none => simp [hread] at h
  | some e' =>
    simp only [hread, Except.ok.injEq] at h
    subst h
    obtain ⟨o, ho, hbody⟩ := Option.bind_eq_some_iff.mp hread
    obtain ⟨rfl, hfields⟩ := readFields_eq_some.mp ho
    split at hbody
    · obtain ⟨eventId, heventId, hbody⟩ := Option.bind_eq_some_iff.mp hbody
      obtain ⟨eventType, heventType, hbody⟩ := Option.bind_eq_some_iff.mp hbody
      obtain ⟨occ, hoccSome, hbody⟩ := Option.bind_eq_some_iff.mp hbody
      obtain ⟨obs, hobsSome, hbody⟩ := Option.bind_eq_some_iff.mp hbody
      obtain ⟨source, hsource, hbody⟩ := Option.bind_eq_some_iff.mp hbody
      obtain ⟨correlation, hcorrelation, hbody⟩ := Option.bind_eq_some_iff.mp hbody
      obtain ⟨causality, hcausality, hbody⟩ := Option.bind_eq_some_iff.mp hbody
      obtain ⟨principal, hprincipal, hbody⟩ := Option.bind_eq_some_iff.mp hbody
      obtain ⟨classification, hclassification, hbody⟩ := Option.bind_eq_some_iff.mp hbody
      obtain ⟨payload, hpayload, hbody⟩ := Option.bind_eq_some_iff.mp hbody
      obtain ⟨integrity, hintegrity, hbody⟩ := Option.bind_eq_some_iff.mp hbody
      split at hbody
      · rw [hoccSome] at hocc
        rw [hobsSome] at hobs
        obtain rfl := Option.some.inj hbody
        exact ⟨o, rfl, hfields, heventId, heventType, hocc, hobs, hsource, hcorrelation,
          hcausality, hprincipal, hclassification, hpayload, hintegrity⟩
      · cases hbody
    · cases hbody

/-! ## Reading what redaction left -/

theorem readFields_marker {fields : List Str} (h : fields.contains (lit "marker") = false)
    (reason : Str) : readFields fields (redactedMarker reason).sortKeys = none := by
  cases hr : readFields fields (redactedMarker reason).sortKeys with
  | none => rfl
  | some o =>
    obtain ⟨ho, hall⟩ := readFields_eq_some.mp hr
    rw [redactedMarker, Value.sortKeys_dict, Value.dict.injEq] at ho
    have hmem : lit "marker" ∈ Obj.keys o := by
      rw [← ho]
      exact ((sortPairs_perm _).map Prod.fst).mem_iff.mpr (by simp)
    rw [List.all_eq_true] at hall
    rw [hall _ hmem] at h
    cases h

/-- An object that still validates was redacted member by member. -/
theorem redacted_object {fields : List Str} (hm : fields.contains (lit "marker") = false)
    {kvs : Obj} (hn : (Obj.keys kvs).Nodup) {path : Path} {w : Value} {o : Obj}
    (h : Redacts P policy path (.dict kvs) w) (hr : readFields fields w.sortKeys = some o)
    {k : Str} {v : Value} (hv : Obj.get? kvs k = some v) :
    ∃ w', Obj.get? o k = some w'.sortKeys ∧ Redacts P policy (path ++ [P.lower k]) v w' := by
  rcases redacts_shape h with ⟨-, rfl⟩ | ⟨-, out, rfl, hout⟩
  · rw [readFields_marker hm] at hr
    cases hr
  · obtain ⟨hdict, -⟩ := readFields_eq_some.mp hr
    rw [Value.sortKeys_dict, Value.dict.injEq] at hdict
    obtain ⟨w', hw', hred⟩ := get?_of_redactsMembers hout hv
    have hn' : (Obj.keys out).Nodup := by rw [keys_of_redactsMembers hout]; exact hn
    exact ⟨w', by rw [← hdict]; exact field_sortKeys hn' hw', hred⟩

theorem readText_eq_some {v : Value} {t : Text} (h : readText P v = some t) : v = .str t.val := by
  cases v with
  | str s =>
    simp only [readText] at h
    split at h
    · rw [← Option.some.inj h]
    · cases h
  | _ => cases h

theorem eq_str_of_sortKeys {w : Value} {s : Str} (h : w.sortKeys = .str s) : w = .str s := by
  cases w with
  | str t => exact h
  | list xs =>
    rw [Value.sortKeys_list] at h
    cases h
  | dict kvs =>
    rw [Value.sortKeys_dict] at h
    cases h
  | _ => cases h

theorem redacted_text {path : Path} {s : Str} {w : Value} {t : Text}
    (h : Redacts P policy path (.str s) w) (hr : readText P w.sortKeys = some t) :
    redactText policy s = .ok t.val := by
  obtain rfl := eq_str_of_sortKeys (readText_eq_some hr)
  exact redactText_of_redacts h

/-- `none` stays, a text becomes its redaction. -/
def RedactsText (policy : RedactionPolicy) (a b : Option Text) : Prop :=
  match a, b with
  | none, none => True
  | some s, some t => redactText policy s.val = .ok t.val
  | _, _ => False

theorem redacted_optText {path : Path} {a b : Option Text} {w : Value}
    (h : Redacts P policy path (optText a) w) (hr : readOptText P (some w.sortKeys) = some b) :
    RedactsText policy a b := by
  cases a with
  | none =>
    rcases redacts_shape h with ⟨-, rfl⟩ | ⟨-, rfl⟩
    · rw [redactedMarker, Value.sortKeys_dict] at hr
      cases hr
    · obtain rfl := Option.some.inj hr
      trivial
  | some s =>
    -- neither a marker nor a capture object reads as optional text
    have hnull : w.sortKeys ≠ .null := by
      intro hw
      rcases redacts_shape h with ⟨-, rfl⟩ | ⟨-, t, -, hc⟩
      · rw [redactedMarker, Value.sortKeys_dict] at hw
        cases hw
      · split_ifs at hc
        · rw [hc] at hw
          cases hw
        · rcases captureString_cases hc with rfl | ⟨c, rfl⟩
          · cases hw
          · rw [CaptureMetadata.asJson, Value.sortKeys_dict] at hw
            cases hw
    have hread : (readText P w.sortKeys).map some = some b := by
      unfold readOptText at hr
      split at hr
      · rename_i heq
        cases heq
      · rename_i heq
        exact absurd (Option.some.inj heq) hnull
      · rename_i heq
        rw [Option.some.inj heq]
        exact hr
    obtain ⟨t, ht, rfl⟩ := Option.map_eq_some_iff.mp hread
    exact redacted_text h ht

theorem redacted_sequence {path : Path} {n m : Nat} {w : Value}
    (h : Redacts P policy path (.int n) w) (hr : readNatural P w.sortKeys = some m) : m = n := by
  rcases redacts_shape h with ⟨-, rfl⟩ | ⟨-, rfl⟩
  · rw [redactedMarker, Value.sortKeys_dict, readNatural, P.parseInt_dict] at hr
    cases hr
  · simpa [readNatural, Value.sortKeys, P.parseInt_int] using hr.symm

/-! ## The event that comes back -/

structure RedactedFrom (P : Platform) (policy : RedactionPolicy) (e r : EventEnvelope) : Prop where
  eventId : redactText policy e.eventId.val = .ok r.eventId.val
  eventType : redactText policy e.eventType.val = .ok r.eventType.val
  rootEventId : redactText policy e.causality.rootEventId.val = .ok r.causality.rootEventId.val
  sequence : r.causality.sequence = e.causality.sequence
  parentEventId : RedactsText policy e.causality.parentEventId r.causality.parentEventId
  previousEventHash :
    RedactsText policy e.integrity.previousEventHash r.integrity.previousEventHash
  eventHash : RedactsText policy e.integrity.eventHash r.integrity.eventHash
  source : ∃ w, Redacts P policy [P.lower (lit "source")] e.source.json w ∧
    readSource P w.sortKeys = some r.source
  correlation : ∃ w, Redacts P policy [P.lower (lit "correlation")] e.correlation.json w ∧
    readCorrelation P w.sortKeys = some r.correlation
  principal : ∃ w, Redacts P policy [P.lower (lit "principal")] e.principal.json w ∧
    readPrincipal P w.sortKeys = some r.principal
  classification : ∃ w, Redacts P policy [P.lower (lit "classification")] e.classification.json w ∧
    readClassification w.sortKeys = some r.classification
  payload : ∃ o w, P.dumpPayload e.payload.items = .ok o ∧
    Redacts P policy [P.lower (lit "payload")] (.dict o) w ∧ w.WellFormed ∧
    w.sortKeys = .dict r.payload.items
  canonical : r.Canonical

/-- A payload read from well-formed items in key order keeps them. -/
theorem readPayload_sortKeys {w : Value} {p : Payload} (hw : w.WellFormed)
    (h : readPayload (some w.sortKeys) = some p) : w.sortKeys = .dict p.items := by
  have hws := Value.wellFormed_sortKeys.mpr hw
  generalize w.sortKeys = v at h hws
  cases v with
  | dict kvs =>
    simp only [readPayload, requireJsonPayload] at h
    split at h
    · obtain rfl := Option.some.inj h
      exact (freezeJsonValue_eq_self hws).symm
    · cases h
  | _ => cases h

theorem redactedFrom {e r : EventEnvelope} {o out : Obj}
    (ho : P.dumpPayload e.payload.items = .ok o)
    (hred : Redacts P policy [] (.dict (e.items o)) (.dict out))
    (hfree : (Value.dict out).TextsSurrogateFree)
    (hval : modelValidate P (Value.dict out).sortKeys = .ok r) : RedactedFrom P policy e r := by
  obtain ⟨sorted, hsorted, reads⟩ := reads_of_modelValidate hval
  have hfields : readFields eventFields (Value.dict out).sortKeys = some sorted :=
    readFields_eq_some.mpr ⟨hsorted, reads.fields⟩
  have member : ∀ k v, Obj.get? (e.items o) k = some v →
      ∃ w, Obj.get? sorted k = some w.sortKeys ∧ Redacts P policy [P.lower k] v w :=
    fun k v hv => redacted_object (by decide) (e.keys_nodup o) hred hfields hv
  have hwo : (Value.dict o).WellFormed := P.dumpPayload_wellFormed _ _ e.payload.wellFormed ho
  -- nested objects: members of the object at a key
  obtain ⟨wid, hwid, rid⟩ := member (lit "event_id") (.str e.eventId.val) rfl
  obtain ⟨wty, hwty, rty⟩ := member (lit "event_type") (.str e.eventType.val) rfl
  obtain ⟨wso, hwso, rso⟩ := member (lit "source") e.source.json rfl
  obtain ⟨wco, hwco, rco⟩ := member (lit "correlation") e.correlation.json rfl
  obtain ⟨wca, hwca, rca⟩ := member (lit "causality") e.causality.json rfl
  obtain ⟨wpr, hwpr, rpr⟩ := member (lit "principal") e.principal.json rfl
  obtain ⟨wcl, hwcl, rcl⟩ := member (lit "classification") e.classification.json rfl
  obtain ⟨wpa, hwpa, rpa⟩ := member (lit "payload") (.dict o) rfl
  obtain ⟨win, hwin, rin⟩ := member (lit "integrity") e.integrity.json rfl
  have hid := reads.eventId
  have hty := reads.eventType
  have hso := reads.source
  have hco := reads.correlation
  have hca := reads.causality
  have hpr := reads.principal
  have hcl := reads.classification
  have hpa := reads.payload
  have hin := reads.integrity
  rw [hwid, Option.bind_some] at hid
  rw [hwty, Option.bind_some] at hty
  rw [hwso, Option.bind_some] at hso
  rw [hwco, Option.bind_some] at hco
  rw [hwca, Option.bind_some] at hca
  rw [hwpr, Option.bind_some] at hpr
  rw [hwcl, Option.bind_some] at hcl
  rw [hwpa] at hpa
  rw [hwin] at hin
  have hwpay : wpa.WellFormed := redacts_wellFormed hwo rpa
  have hitems := readPayload_sortKeys hwpay hpa
  -- causality
  have hcnodup : (Obj.keys e.causality.items).Nodup := by
    simp only [Obj.keys, Causality.items, List.map_cons, List.map_nil]
    decide
  obtain ⟨co, hco', hca⟩ := Option.bind_eq_some_iff.mp hca
  obtain ⟨wroot, hwroot, rroot⟩ := redacted_object (by decide) hcnodup rca hco'
    (k := lit "root_event_id") (v := .str e.causality.rootEventId.val) rfl
  obtain ⟨wseq, hwseq, rseq⟩ := redacted_object (by decide) hcnodup rca hco'
    (k := lit "sequence") (v := .int e.causality.sequence) rfl
  obtain ⟨wpar, hwpar, rpar⟩ := redacted_object (by decide) hcnodup rca hco'
    (k := lit "parent_event_id") (v := optText e.causality.parentEventId) rfl
  obtain ⟨root, hroot, hca⟩ := Option.bind_eq_some_iff.mp hca
  obtain ⟨seq, hseq, hca⟩ := Option.bind_eq_some_iff.mp hca
  obtain ⟨par, hpar, hca⟩ := Option.bind_eq_some_iff.mp hca
  rw [hwroot, Option.bind_some] at hroot
  rw [hwseq, Option.bind_some] at hseq
  rw [hwpar] at hpar
  have hcausality := Option.some.inj hca
  -- integrity
  have hinodup : (Obj.keys e.integrity.items).Nodup := by
    simp only [Obj.keys, IntegrityMetadata.items, List.map_cons, List.map_nil]
    decide
  obtain ⟨io, hio, hin⟩ := Option.bind_eq_some_iff.mp hin
  obtain ⟨wprev, hwprev, rprev⟩ := redacted_object (by decide) hinodup rin hio
    (k := lit "previous_event_hash") (v := optText e.integrity.previousEventHash) rfl
  obtain ⟨whash, hwhash, rhash⟩ := redacted_object (by decide) hinodup rin hio
    (k := lit "event_hash") (v := optText e.integrity.eventHash) rfl
  obtain ⟨label, -, hin⟩ := Option.bind_eq_some_iff.mp hin
  obtain ⟨prev, hprev, hin⟩ := Option.bind_eq_some_iff.mp hin
  obtain ⟨hash, hhash, hin⟩ := Option.bind_eq_some_iff.mp hin
  rw [hwprev] at hprev
  rw [hwhash] at hhash
  have hintegrity := Option.some.inj hin
  have hpayfree : wpa.KeysSurrogateFree := by
    have hsortedFree := Value.textsSurrogateFree_sortKeys.mpr hfree
    rw [hsorted] at hsortedFree
    have := ((Value.all_dict _).mp hsortedFree).2 _ (Obj.mem_of_get? hwpa)
    exact Value.keysSurrogateFree_sortKeys.mp (Value.TextsSurrogateFree.keys this)
  exact
    { eventId := redacted_text rid hid
      eventType := redacted_text rty hty
      rootEventId := by rw [← hcausality]; exact redacted_text rroot hroot
      sequence := by rw [← hcausality]; exact redacted_sequence rseq hseq
      parentEventId := by rw [← hcausality]; exact redacted_optText rpar hpar
      previousEventHash := by rw [← hintegrity]; exact redacted_optText rprev hprev
      eventHash := by rw [← hintegrity]; exact redacted_optText rhash hhash
      source := ⟨wso, rso, hso⟩
      correlation := ⟨wco, rco, hco⟩
      principal := ⟨wpr, rpr, hpr⟩
      classification := ⟨wcl, rcl, hcl⟩
      payload := ⟨o, wpa, ho, rpa, hwpay, hitems⟩
      canonical :=
        { sorted := by rw [← hitems, Value.sortKeys_idem]
          keys := by rw [← hitems]; exact Value.keysSurrogateFree_sortKeys.mpr hpayfree } }

/-- What comes back after redacting, writing and reading an event. -/
theorem redactedFrom_of_persisted {e r : EventEnvelope} {b : Bytes}
    (hb : serializeEventForPersistence P policy e = .ok b) (hr : eventFromJson P b = .ok r) :
    RedactedFrom P policy e r := by
  obtain ⟨v, hv, hb⟩ := bind_eq_ok.mp hb
  cases v with
  | dict out =>
    have hdump := deterministicJsonBytes_eq_ok.mp hb
    -- the redaction step
    obtain ⟨o, ho, hred⟩ : ∃ o, P.dumpPayload e.payload.items = .ok o ∧
        Redacts P policy [] (.dict (e.items o)) (.dict out) ∧
        Fits .default 0 (.dict (e.items o)) := by
      unfold redactEvent at hv
      split at hv
      · rename_i v' hv'
        obtain rfl := Except.ok.inj hv
        obtain ⟨kvs, hkvs, happly⟩ := bind_eq_ok.mp hv'
        obtain ⟨o, ho, rfl, hfits⟩ := eventToDict_eq_ok.mp hkvs
        refine ⟨o, ho, ?_, hfits⟩
        unfold RedactionPolicy.apply at happly
        simp only at happly
        split at happly
        · rename_i v'' hresult
          obtain rfl := Except.ok.inj happly
          obtain ⟨budget, -, hresult⟩ := bind_eq_ok.mp hresult
          obtain ⟨rr, hrr, hresult⟩ := bind_eq_ok.mp hresult
          rw [← Except.ok.inj hresult]
          exact ⟨0, budget, rr.2, hrr⟩
        · cases happly
      · cases hv
    have hwe : (Value.dict (e.items o)).WellFormed :=
      items_wellFormed e (P.dumpPayload_wellFormed _ _ e.payload.wellFormed ho)
    have hheight := redacts_height hred.1
    have hfits := hred.2.height_le
    have hlimit := P.recursionLimit_ge
    simp only [JsonLimits.default, DEFAULT_JSON_MAX_DEPTH, Nat.zero_add] at hfits
    have hloads := loads_dumpBytes (h := strictHooks P) keepsObjects_strictHooks
      (redacts_wellFormed hwe hred.1) (by simp only [strictHooks]; omega) hdump
    obtain ⟨w, hw, hval⟩ := eventFromJson_eq_ok.mp hr
    obtain rfl := Except.ok.inj (hloads.symm.trans hw)
    exact redactedFrom ho hred.1 (textsSurrogateFree_of_dumpBytes hdump) hval
  | _ => cases hb

end ActionLineage
