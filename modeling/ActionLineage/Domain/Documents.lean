import ActionLineage.Journal.Hashing

/-!
# Events and the documents they are written as

A payload in memory keeps the order its keys came in, the document does not. `SameDocument` is
equality of what is written; an event and its payload-sorted form have the same document, the same
hash and the same integrity block, so for canonical events it is equality.
-/

namespace ActionLineage

open Py

variable {P : Platform}

/-- Both events are written, as the same bytes. -/
def SameDocument (P : Platform) (a b : EventEnvelope) : Prop :=
  ∃ doc, serializeEvent P a = .ok doc ∧ serializeEvent P b = .ok doc

section WithPayload

variable {e : EventEnvelope} {o : Obj} {p : Payload}

theorem serializeEvent_withPayload (ho : P.dumpPayload e.payload.items = .ok o)
    (hp : (Value.dict o).sortKeys = .dict p.items) (hk : (Value.dict o).KeysSurrogateFree)
    {doc : Bytes} : serializeEvent P (e.withPayload p) = .ok doc ↔ serializeEvent P e = .ok doc := by
  have hdump : P.dumpPayload (e.withPayload p).payload.items = .ok p.items :=
    (withPayload_canonical hp hk).dumpPayload
  have hsort : (Value.dict ((e.withPayload p).items p.items)).sortKeys =
      (Value.dict (e.items o)).sortKeys := by
    have hidem : (Value.dict p.items).sortKeys = (Value.dict o).sortKeys := by
      rw [← hp, Value.sortKeys_idem]
    show (Value.dict (e.items p.items)).sortKeys = _
    rw [Value.sortKeys_dict, Value.sortKeys_dict]
    simp only [EventEnvelope.items, List.map_cons, hidem]
  have hfits : Fits .default 0 (.dict ((e.withPayload p).items p.items)) ↔
      Fits .default 0 (.dict (e.items o)) := by
    rw [← fits_sortKeys, hsort, fits_sortKeys]
  have hbytes : dumpBytes (.dict ((e.withPayload p).items p.items)) = dumpBytes (.dict (e.items o)) := by
    rw [← dumpBytes_sortKeys, hsort, dumpBytes_sortKeys]
  simp only [serializeEvent_eq_ok, hdump, ho, Except.ok.injEq, exists_eq_left', hfits, hbytes]

theorem computeEventHash_withPayload (ho : P.dumpPayload e.payload.items = .ok o)
    (hp : (Value.dict o).sortKeys = .dict p.items) (hk : (Value.dict o).KeysSurrogateFree)
    {h : Text} : computeEventHash P (e.withPayload p) = .ok h ↔ computeEventHash P e = .ok h := by
  have hunhashed {doc : Bytes} := @serializeEvent_withPayload P
    (eventWithIntegrity e e.integrity.previousEventHash none) o p ho hp hk doc
  simp only [computeEventHash_eq_ok]
  constructor
  · rintro ⟨hs, b, hb, rfl⟩
    exact ⟨hs, b, hunhashed.mp hb, rfl⟩
  · rintro ⟨hs, b, hb, rfl⟩
    exact ⟨hs, b, hunhashed.mpr hb, rfl⟩

end WithPayload

/-- An event as it is read back: the same document, hash and integrity block. -/
structure CanonicalForm (P : Platform) (e c : EventEnvelope) : Prop where
  canonical : c.Canonical
  integrity : c.integrity = e.integrity
  document : ∀ doc, serializeEvent P c = .ok doc ↔ serializeEvent P e = .ok doc
  hash : ∀ h, computeEventHash P c = .ok h ↔ computeEventHash P e = .ok h

/-- The form an event is read back in, when it is written without its own hash. -/
theorem exists_canonicalForm {e : EventEnvelope} {b : Bytes}
    (hb : serializeEvent P (eventWithIntegrity e e.integrity.previousEventHash none) = .ok b) :
    ∃ c, CanonicalForm P e c := by
  obtain ⟨o, p, ho, hp, hk, -⟩ := parseEvent_of_serializeEvent hb
  exact ⟨e.withPayload p, withPayload_canonical hp hk, rfl,
    fun _ => serializeEvent_withPayload (e := e) ho hp hk,
    fun _ => computeEventHash_withPayload (e := e) ho hp hk⟩

/-- When digests do not collide, events that state the same correct hash are the same document. -/
theorem sameDocument_of_computeEventHash (hinj : Function.Injective P.sha256Hex)
    {a b : EventEnvelope} {h : Text} (ha : computeEventHash P a = .ok h)
    (hb : computeEventHash P b = .ok h) (hself : a.integrity.eventHash = b.integrity.eventHash)
    (hwritten : ∃ doc, serializeEvent P b = .ok doc) : SameDocument P a b := by
  obtain ⟨-, _, hdoca, -⟩ := computeEventHash_eq_ok.mp ha
  obtain ⟨-, _, hdocb, -⟩ := computeEventHash_eq_ok.mp hb
  obtain ⟨c, hc⟩ := exists_canonicalForm hdoca
  obtain ⟨d, hd⟩ := exists_canonicalForm hdocb
  have hcd : c = d := by
    apply eq_of_computeEventHash hinj hc.canonical hd.canonical ((hc.hash h).mpr ha)
      ((hd.hash h).mpr hb)
    rw [hc.integrity, hd.integrity, hself]
  obtain ⟨doc, hdoc⟩ := hwritten
  refine ⟨doc, (hc.document doc).mp ?_, hdoc⟩
  rw [hcd]
  exact (hd.document doc).mpr hdoc

/-- The document fixes the integrity block and the hash. -/
theorem SameDocument.integrity {a b : EventEnvelope} (h : SameDocument P a b) :
    a.integrity = b.integrity ∧ ∀ t, computeEventHash P a = .ok t ↔ computeEventHash P b = .ok t := by
  obtain ⟨doc, ha, hb⟩ := h
  obtain ⟨o, p, ho, hp, hk, hparse⟩ := parseEvent_of_serializeEvent ha
  obtain ⟨o', p', ho', hp', hk', hparse'⟩ := parseEvent_of_serializeEvent hb
  have hform : a.withPayload p = b.withPayload p' := Except.ok.inj (hparse.symm.trans hparse')
  constructor
  · calc a.integrity = (a.withPayload p).integrity := rfl
      _ = (b.withPayload p').integrity := by rw [hform]
      _ = b.integrity := rfl
  · intro t
    rw [← computeEventHash_withPayload ho hp hk, hform, computeEventHash_withPayload ho' hp' hk']

end ActionLineage
