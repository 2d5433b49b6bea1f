import ActionLineage.Domain.Documents
import ActionLineage.Reference

/-!
# The event codec

Mappings are equal whatever order their keys came in, so `EventEnvelope.Same` compares payloads in
key order; ints stay apart from floats. Up to that, `parse_event` undoes `serialize_event`
(`event_codec`), for all payloads that can be written. That `model_dump` hands on the payload dict
unchanged is pydantic's part of it.
-/

namespace ActionLineage

open Py

variable {P : Platform}

/-- Equal in every field; a payload is compared without the order of its keys. -/
def EventEnvelope.Same (a b : EventEnvelope) : Prop :=
  a.withPayload b.payload = b ∧
    (Value.dict a.payload.items).sortKeys = (Value.dict b.payload.items).sortKeys

theorem EventEnvelope.Same.symm {a b : EventEnvelope} (h : a.Same b) : b.Same a := by
  refine ⟨?_, h.2.symm⟩
  calc b.withPayload a.payload = (a.withPayload b.payload).withPayload a.payload := by rw [h.1]
    _ = a := rfl

theorem EventEnvelope.Same.trans {a b c : EventEnvelope} (h : a.Same b) (h' : b.Same c) :
    a.Same c := by
  refine ⟨?_, h.2.trans h'.2⟩
  calc a.withPayload c.payload = (a.withPayload b.payload).withPayload c.payload := rfl
    _ = b.withPayload c.payload := by rw [h.1]
    _ = c := h'.1

/-- `model_dump(mode="json")` of a payload dict returns it as it is, or raises. -/
def DumpsUnchanged (P : Platform) : Prop := ∀ o o', P.dumpPayload o = .ok o' → o' = o

section Codec

variable {e : EventEnvelope} {b : Bytes}

/-- The event read back is the event, with its payload in key order. -/
theorem parsed_same (hdump : DumpsUnchanged P) (h : serializeEvent P e = .ok b) :
    ∃ e', parseEvent P b = .ok e' ∧ e'.Same e := by
  obtain ⟨o, p, ho, hp, -, hparse⟩ := parseEvent_of_serializeEvent h
  obtain rfl := hdump _ _ ho
  have hsort : (Value.dict p.items).sortKeys = (Value.dict e.payload.items).sortKeys := by
    rw [← hp, Value.sortKeys_idem]
  exact ⟨e.withPayload p, hparse, rfl, hsort⟩

/-- The order of the keys does not reach the bytes. -/
theorem serializeEvent_of_same (hdump : DumpsUnchanged P) {e' : EventEnvelope} (hsame : e.Same e')
    (h : serializeEvent P e = .ok b) : serializeEvent P e' = .ok b := by
  obtain ⟨o, p, ho, hp, hk, -⟩ := parseEvent_of_serializeEvent h
  obtain rfl := hdump _ _ ho
  -- both are written as the event with its payload in key order
  have hkeys : (Value.dict e'.payload.items).KeysSurrogateFree := by
    rw [← Value.keysSurrogateFree_sortKeys, ← hsame.2]
    exact Value.keysSurrogateFree_sortKeys.mpr hk
  have hp' : (Value.dict e'.payload.items).sortKeys = .dict p.items := hsame.2.symm.trans hp
  have hcanonical := (serializeEvent_withPayload ho hp hk).mpr h
  rw [← serializeEvent_withPayload (P.dumpPayload_eq _ hkeys) hp' hkeys]
  have hform : e'.withPayload p = e.withPayload p := by
    calc e'.withPayload p = (e.withPayload e'.payload).withPayload p := by rw [hsame.1]
      _ = e.withPayload p := rfl
  rwa [hform]

/-- Writing and reading an event: the round trip, what it says of the bytes, and the fixed point
that re-serialization reaches. -/
theorem event_codec (hdump : DumpsUnchanged P) :
    (∀ e b, serializeEvent P e = .ok b → ∃ e', parseEvent P b = .ok e' ∧ e'.Same e) ∧
    (∀ e e' b, serializeEvent P e = .ok b → serializeEvent P e' = .ok b → e.Same e') ∧
    (∀ e e' b, e.Same e' → serializeEvent P e = .ok b → serializeEvent P e' = .ok b) ∧
    (∀ line e c, parseEvent P line = .ok e → serializeEvent P e = .ok c →
      ∃ e', parseEvent P c = .ok e' ∧ serializeEvent P e' = .ok c) := by
  refine ⟨fun e b h => ?_, fun e e' b h h' => ?_, fun e e' b => serializeEvent_of_same hdump,
    fun line e c _ h => ?_⟩
  · exact parsed_same hdump h
  · obtain ⟨r, hparse, hsame⟩ := parsed_same hdump h
    obtain ⟨r', hparse', hsame'⟩ := parsed_same hdump h'
    obtain rfl := Except.ok.inj (hparse.symm.trans hparse')
    exact hsame.symm.trans hsame'
  · obtain ⟨e', hparse, hsame⟩ := parsed_same hdump h
    exact ⟨e', hparse, serializeEvent_of_same hdump hsame.symm h⟩

end Codec

theorem event_codec_sample :
    (∀ e b, serializeEvent .checksummed e = .ok b →
      ∃ e', parseEvent .checksummed b = .ok e' ∧ e'.Same e) ∧
    (∀ e e' b, serializeEvent .checksummed e = .ok b → serializeEvent .checksummed e' = .ok b →
      e.Same e') ∧
    (∀ e e' b, e.Same e' → serializeEvent .checksummed e = .ok b →
      serializeEvent .checksummed e' = .ok b) ∧
    (∀ line e c, parseEvent .checksummed line = .ok e → serializeEvent .checksummed e = .ok c →
      ∃ e', parseEvent .checksummed c = .ok e' ∧ serializeEvent .checksummed e' = .ok c) :=
  event_codec fun _ _ h => (Except.ok.inj h).symm

end ActionLineage
