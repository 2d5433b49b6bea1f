import ActionLineage.Domain.Serialization
import ActionLineage.Py.Effects

/-!
# Normalizing evidence into events

`EvidenceNormalizer` is the event factory of every import: it draws an id and two timestamps from
injected objects and links the new event to the last one it produced. `Supply` is such an object,
given by its answers to successive calls, so that a generator may repeat itself or raise.

A record that fails has used up its id but leaves sequence, root and last event as they were; one
that succeeds moves all three (`record_cases`). Nothing here knows whether the event is persisted.
-/

namespace ActionLineage

open Py

/-- An injected object: what it answers or raises, call by call. -/
structure Supply (α : Type) where
  answers : Nat → Except PyError α
  calls : Nat

def Supply.next {α : Type} (s : Supply α) : Supply α := { s with calls := s.calls + 1 }

/-- A `datetime`: local fields and the offset in seconds, if it is aware. -/
abbrev Timestamp := DateTime × Option Int

structure EvidenceNormalizer where
  correlation : Correlation
  source : Source
  principal : Principal
  classification : Classification
  clock : Supply Timestamp
  idGenerator : Supply Str
  initialSequence : Nat
  sequence : Nat
  rootEventId : Option Text
  lastEventId : Option Text

/-- A model that fails a check is one `ValidationError`. -/
def validated {α : Type} (fields : Option α) : Except PyError α :=
  match fields with
  | some a => .ok a
  | none => .error .validationError

@[simp] theorem validated_eq_ok {α : Type} {fields : Option α} {a : α} :
    validated fields = .ok a ↔ fields = some a := by
  cases fields <;> simp [validated]

section Construct

variable (P : Platform)

/-- `require_aware_utc`; `none` is a failed check. -/
def requireAwareUtc : Timestamp → Except PyError (Option DateTime)
  | (_, none) => .ok none
  | (d, some offset) =>
    match d.ofLocal offset with
    | some utc => .ok (some utc)
    | none => .error (.overflowError "date value out of range")

/-- `Causality(...)`. -/
def Causality.make (rootEventId : Str) (parentEventId : Option Str) (sequence : Nat) :
    Except PyError Causality :=
  validated do
    let rootEventId ← readText P (.str rootEventId)
    let parentEventId ← readOptText P (parentEventId.map .str)
    some ⟨rootEventId, sequence, parentEventId⟩

/-- The fields of an event as its constructor gets them; the nested objects are instances. -/
structure EventArguments where
  eventId : Str
  eventType : Str
  occurredAt : Timestamp
  observedAt : Timestamp
  source : Source
  correlation : Correlation
  causality : Causality
  principal : Principal
  classification : Classification
  payload : Obj

/-- The event, if every field passes its check. -/
def EventArguments.event (a : EventArguments) (occurredAt observedAt : Option DateTime) :
    Option EventEnvelope := do
  let eventId ← readText P (.str a.eventId)
  let eventType ← readText P (.str a.eventType)
  let occurredAt ← occurredAt
  let observedAt ← observedAt
  let payload ← requireJsonPayload a.payload
  if h : CausalityOk eventId eventType a.causality then
    some ⟨eventId, eventType, occurredAt, observedAt, a.source, a.correlation, a.causality,
      a.principal, a.classification, payload, .default, h⟩
  else none

/-- `EventEnvelope(...)`. An `OverflowError` is no failed check: it wins over those of the other
fields. -/
def EventEnvelope.make (a : EventArguments) : Except PyError EventEnvelope := do
  let occurredAt ← requireAwareUtc a.occurredAt
  let observedAt ← requireAwareUtc a.observedAt
  validated (a.event P occurredAt observedAt)

end Construct

/-! ## The event factory -/

/-- Code that uses a normalizer. -/
abbrev Recording := Raising PyError EvidenceNormalizer

namespace EvidenceNormalizer

/-- `rebase_initial_sequence`. -/
def rebaseInitialSequence (n : EvidenceNormalizer) (initialSequence : Nat) :
    Except PyError EvidenceNormalizer :=
  if n.sequence ≠ n.initialSequence ∨ n.rootEventId ≠ none then
    .error (.valueError "cannot rebase a normalizer after records have been emitted")
  else .ok { n with initialSequence := initialSequence, sequence := initialSequence }

/-- `id_generator.new_id("evt")`. -/
def newId : Recording Str :=
  fun n => (n.idGenerator.answers n.idGenerator.calls, { n with idGenerator := n.idGenerator.next })

/-- `clock.now()`. -/
def now : Recording Timestamp :=
  fun n => (n.clock.answers n.clock.calls, { n with clock := n.clock.next })

/-- The keyword arguments of `record`; absent ones are `none`. -/
structure Overrides where
  source : Option Source := none
  principal : Option Principal := none
  classification : Option Classification := none
  parentEventId : Option Str := none
  rootEventId : Option Str := none

def isRoot (n : EvidenceNormalizer) (o : Overrides) : Bool :=
  n.rootEventId.isNone && o.parentEventId.isNone && o.rootEventId.isNone

/-- `_resolve_root_event_id`. -/
def resolveRootEventId (n : EvidenceNormalizer) (eventId : Str) (rootEventId : Option Str)
    (isRoot : Bool) : Except PyError Str :=
  if isRoot then .ok eventId
  else
    match rootEventId, n.rootEventId with
    | some root, _ => .ok root
    | none, some root => .ok root.val
    | none, none =>
      .error (.valueError "root_event_id is required when the first event is not a root event")

/-- `None if is_root else parent_event_id or self._last_event_id`. -/
def resolveParentEventId (n : EvidenceNormalizer) (parentEventId : Option Str) (isRoot : Bool) :
    Option Str :=
  if isRoot then none
  else
    match parentEventId with
    | some parent => if parent ≠ [] then some parent else n.lastEventId.map Subtype.val
    | none => n.lastEventId.map Subtype.val

/-- The normalizer after it produced the event. -/
def emitted (n : EvidenceNormalizer) (event : EventEnvelope) : EvidenceNormalizer :=
  { n with
    sequence := n.sequence + 1
    rootEventId := some event.causality.rootEventId
    lastEventId := some event.eventId }

def record (P : Platform) (eventType : Str) (payload : Obj) (o : Overrides) :
    Recording EventEnvelope := do
  let eventId ← newId
  let n ← .read
  let rootEventId ← .ofResult (n.resolveRootEventId eventId o.rootEventId (n.isRoot o))
  let occurredAt ← now
  let observedAt ← now
  let causality ← .ofResult (Causality.make P rootEventId
    (n.resolveParentEventId o.parentEventId (n.isRoot o)) n.sequence)
  let event ← .ofResult (EventEnvelope.make P
    { eventId, eventType, occurredAt, observedAt, source := o.source.getD n.source
      correlation := n.correlation, causality, principal := o.principal.getD n.principal
      classification := o.classification.getD n.classification, payload })
  .modify fun n => n.emitted event
  return event

end EvidenceNormalizer

/-! ## What a call does -/

variable {P : Platform}

theorem readText_str_eq_some {s : Str} {t : Text} (h : readText P (.str s) = some t) : t.val = s := by
  unfold readText at h
  dsimp only at h
  split at h
  · rw [← Option.some.inj h]
  · cases h

theorem Causality.make_eq_ok {rootEventId : Str} {parentEventId : Option Str} {sequence : Nat}
    {c : Causality} (h : Causality.make P rootEventId parentEventId sequence = .ok c) :
    c.rootEventId.val = rootEventId ∧ c.sequence = sequence ∧
      c.parentEventId.map Subtype.val = parentEventId := by
  obtain ⟨root, hroot, h⟩ := Option.bind_eq_some_iff.mp (validated_eq_ok.mp h)
  obtain ⟨parent, hparent, h⟩ := Option.bind_eq_some_iff.mp h
  obtain rfl := Option.some.inj h
  refine ⟨readText_str_eq_some hroot, rfl, ?_⟩
  cases parentEventId with
  | none =>
    obtain rfl := Option.some.inj hparent
    rfl
  | some p =>
    obtain ⟨t, ht, rfl⟩ := Option.map_eq_some_iff.mp hparent
    exact congrArg some (readText_str_eq_some ht)

/-- The event is what its arguments say. -/
structure MadeFrom (P : Platform) (a : EventArguments) (event : EventEnvelope) : Prop where
  eventId : event.eventId.val = a.eventId
  eventType : event.eventType.val = a.eventType
  source : event.source = a.source
  correlation : event.correlation = a.correlation
  causality : event.causality = a.causality
  principal : event.principal = a.principal
  classification : event.classification = a.classification
  payload : requireJsonPayload a.payload = some event.payload
  integrity : event.integrity = .default

theorem EventEnvelope.make_eq_ok {a : EventArguments} {event : EventEnvelope}
    (h : EventEnvelope.make P a = .ok event) : MadeFrom P a event := by
  obtain ⟨occurredAt, -, h⟩ := bind_eq_ok.mp h
  obtain ⟨observedAt, -, h⟩ := bind_eq_ok.mp h
  obtain ⟨eventId, hid, h⟩ := Option.bind_eq_some_iff.mp (validated_eq_ok.mp h)
  obtain ⟨eventType, htype, h⟩ := Option.bind_eq_some_iff.mp h
  obtain ⟨occurred, -, h⟩ := Option.bind_eq_some_iff.mp h
  obtain ⟨observed, -, h⟩ := Option.bind_eq_some_iff.mp h
  obtain ⟨payload, hpayload, h⟩ := Option.bind_eq_some_iff.mp h
  split at h
  · obtain rfl := Option.some.inj h
    exact ⟨readText_str_eq_some hid, readText_str_eq_some htype, rfl, rfl, rfl, rfl, rfl, hpayload,
      rfl⟩
  · cases h

namespace EvidenceNormalizer

/-- The event a call on `n` returned. -/
structure Recorded (n : EvidenceNormalizer) (eventType : Str) (payload : Obj) (o : Overrides)
    (event : EventEnvelope) : Prop where
  eventType : event.eventType.val = eventType
  source : event.source = o.source.getD n.source
  correlation : event.correlation = n.correlation
  principal : event.principal = o.principal.getD n.principal
  classification : event.classification = o.classification.getD n.classification
  payload : requireJsonPayload payload = some event.payload
  integrity : event.integrity = .default
  sequence : event.causality.sequence = n.sequence
  root : n.resolveRootEventId event.eventId.val o.rootEventId (n.isRoot o)
    = .ok event.causality.rootEventId.val
  parent : event.causality.parentEventId.map Subtype.val
    = n.resolveParentEventId o.parentEventId (n.isRoot o)

variable {n n' : EvidenceNormalizer} {eventType : Str} {payload : Obj} {o : Overrides}

/-- A call that returns moves sequence, root and last event. -/
theorem record_eq_ok {event : EventEnvelope}
    (h : record P eventType payload o n = (.ok event, n')) :
    (∃ clock idGenerator, n' = { n with clock, idGenerator }.emitted event) ∧
      n.Recorded eventType payload o event := by
  obtain ⟨eventId, _, hid, h⟩ := Raising.bind_eq_ok.mp h
  obtain ⟨-, rfl⟩ := Prod.mk.inj hid
  rw [Raising.read_bind] at h
  obtain ⟨root, hroot, h⟩ := Raising.ofResult_bind_eq_ok.mp h
  obtain ⟨occurredAt, _, hocc, h⟩ := Raising.bind_eq_ok.mp h
  obtain ⟨-, rfl⟩ := Prod.mk.inj hocc
  obtain ⟨observedAt, _, hobs, h⟩ := Raising.bind_eq_ok.mp h
  obtain ⟨-, rfl⟩ := Prod.mk.inj hobs
  obtain ⟨causality, hcausality, h⟩ := Raising.ofResult_bind_eq_ok.mp h
  obtain ⟨e, hmake, h⟩ := Raising.ofResult_bind_eq_ok.mp h
  rw [Raising.modify_bind, Raising.pure_apply] at h
  obtain ⟨he, rfl⟩ := Prod.mk.inj h
  obtain rfl := Except.ok.inj he
  obtain ⟨hrootText, hsequence, hparent⟩ := Causality.make_eq_ok hcausality
  have hmade := EventEnvelope.make_eq_ok hmake
  refine ⟨⟨_, _, rfl⟩, hmade.eventType, hmade.source, hmade.correlation, hmade.principal,
    hmade.classification, hmade.payload, hmade.integrity, ?_, ?_, ?_⟩
  · rw [hmade.causality]
    exact hsequence
  · rw [hmade.causality, hrootText, hmade.eventId]
    exact hroot
  · rw [hmade.causality]
    exact hparent

/-- One that raises has only used up an id and clock readings. -/
theorem record_eq_error {exc : PyError}
    (h : record P eventType payload o n = (.error exc, n')) :
    ∃ clock idGenerator, n' = { n with clock, idGenerator } := by
  rcases Raising.bind_eq_error.mp h with hid | ⟨eventId, _, hid, h⟩
  · obtain ⟨-, rfl⟩ := Prod.mk.inj hid
    exact ⟨_, _, rfl⟩
  obtain ⟨-, rfl⟩ := Prod.mk.inj hid
  rw [Raising.read_bind] at h
  rcases Raising.ofResult_bind_eq_error.mp h with ⟨-, rfl⟩ | ⟨root, -, h⟩
  · exact ⟨_, _, rfl⟩
  rcases Raising.bind_eq_error.mp h with hocc | ⟨occurredAt, _, hocc, h⟩
  · obtain ⟨-, rfl⟩ := Prod.mk.inj hocc
    exact ⟨_, _, rfl⟩
  obtain ⟨-, rfl⟩ := Prod.mk.inj hocc
  rcases Raising.bind_eq_error.mp h with hobs | ⟨observedAt, _, hobs, h⟩
  · obtain ⟨-, rfl⟩ := Prod.mk.inj hobs
    exact ⟨_, _, rfl⟩
  obtain ⟨-, rfl⟩ := Prod.mk.inj hobs
  rcases Raising.ofResult_bind_eq_error.mp h with ⟨-, rfl⟩ | ⟨causality, -, h⟩
  · exact ⟨_, _, rfl⟩
  rcases Raising.ofResult_bind_eq_error.mp h with ⟨-, rfl⟩ | ⟨event, -, h⟩
  · exact ⟨_, _, rfl⟩
  -- from here on nothing raises
  cases h

end EvidenceNormalizer

end ActionLineage
