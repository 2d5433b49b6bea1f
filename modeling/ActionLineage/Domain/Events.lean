import ActionLineage.Domain.Json

/-!
# The event envelope

The value objects of the event model, valid by construction: `min_length=1` fields are `Text`,
enumerations are inductive types, the payload is a dict that passed `validate_json_value`, and the
envelope carries `validate_causality`.

* `modelJson` is `model_dump(mode="json")`.
* `modelValidate` is `EventEnvelope.model_validate` on a decoded JSON document: unknown fields are
  refused, missing optional fields take their defaults, and every failed check is one
  `ValidationError`. The conversion of a timestamp to UTC can leave the calendar; pydantic lets that
  `OverflowError` through.
-/

namespace ActionLineage

open Py

/-- A `str` field with `min_length=1`. -/
abbrev Text := { s : Str // s ≠ [] }

def SPEC_VERSION : Str := lit "actionlineage.dev/v1alpha1"

def CANONICALIZATION_VERSION : Str := lit "actionlineage.dev/json-deterministic-v0"

/-! ## Enumerations -/

inductive PrincipalType
  | human | service | agent | model | workload | credential | unknown
deriving DecidableEq, Repr

namespace PrincipalType

def all : List PrincipalType := [human, service, agent, model, workload, credential, unknown]

def text : PrincipalType → Str
  | human => lit "human"
  | service => lit "service"
  | agent => lit "agent"
  | model => lit "model"
  | workload => lit "workload"
  | credential => lit "credential"
  | unknown => lit "unknown"

end PrincipalType

inductive Sensitivity
  | pub | internal | confidential | restricted | secret | unknown
deriving DecidableEq, Repr

namespace Sensitivity

def all : List Sensitivity := [pub, internal, confidential, restricted, secret, unknown]

def text : Sensitivity → Str
  | pub => lit "public"
  | internal => lit "internal"
  | confidential => lit "confidential"
  | restricted => lit "restricted"
  | secret => lit "secret"
  | unknown => lit "unknown"

end Sensitivity

inductive TrustLevel
  | trusted | untrusted | local' | external | unknown
deriving DecidableEq, Repr

namespace TrustLevel

def all : List TrustLevel := [trusted, untrusted, local', external, unknown]

def text : TrustLevel → Str
  | trusted => lit "trusted"
  | untrusted => lit "untrusted"
  | local' => lit "local"
  | external => lit "external"
  | unknown => lit "unknown"

end TrustLevel

inductive ResourceType
  | file | url | networkDestination | process | host | identity | cloudResource | databaseRecord
  | message | secret | unknown
deriving DecidableEq, Repr

def ResourceType.text : ResourceType → Str
  | file => lit "file"
  | url => lit "url"
  | networkDestination => lit "network_destination"
  | process => lit "process"
  | host => lit "host"
  | identity => lit "identity"
  | cloudResource => lit "cloud_resource"
  | databaseRecord => lit "database_record"
  | message => lit "message"
  | secret => lit "secret"
  | unknown => lit "unknown"

/-- `Enum(value)`: the member with the given text. -/
def enumOf {α : Type} (all : List α) (text : α → Str) (s : Str) : Option α :=
  all.find? fun a => text a == s

theorem enumOf_principalType (a : PrincipalType) :
    enumOf PrincipalType.all PrincipalType.text a.text = some a := by
  cases a <;> decide

theorem enumOf_sensitivity (a : Sensitivity) :
    enumOf Sensitivity.all Sensitivity.text a.text = some a := by
  cases a <;> decide

theorem enumOf_trustLevel (a : TrustLevel) :
    enumOf TrustLevel.all TrustLevel.text a.text = some a := by
  cases a <;> decide

/-! ## Value objects -/

structure Source where
  component : Text
  instanceId : Text
  version : Text
deriving DecidableEq

structure Correlation where
  traceId : Text
  runId : Text
  spanId : Option Text
  sessionId : Option Text
deriving DecidableEq

structure Causality where
  rootEventId : Text
  sequence : Nat
  parentEventId : Option Text
deriving DecidableEq

structure Principal where
  principalId : Text
  principalType : PrincipalType
  onBehalfOf : Option Text
  modelId : Option Text
  credentialId : Option Text
deriving DecidableEq

structure Classification where
  sensitivity : Sensitivity
  trust : TrustLevel
deriving DecidableEq

structure IntegrityMetadata where
  canonicalization : Str
  previousEventHash : Option Text
  eventHash : Option Text
deriving DecidableEq

/-- `IntegrityMetadata()`. -/
def IntegrityMetadata.default : IntegrityMetadata := ⟨CANONICALIZATION_VERSION, none, none⟩

/-- A payload that crossed the JSON boundary. -/
structure Payload where
  items : Obj
  wellFormed : (Value.dict items).WellFormed
  fits : Fits .default 0 (.dict items)

theorem Payload.ext {p q : Payload} (h : p.items = q.items) : p = q := by
  obtain ⟨_, _, _⟩ := p
  obtain ⟨_, _, _⟩ := q
  obtain rfl := h
  rfl

def documentedRootEventTypes : List Str :=
  [lit "agent.intent.recorded", lit "agent.run.started", lit "recorder.degraded"]

/-- `validate_causality`. -/
def CausalityOk (eventId eventType : Text) (c : Causality) : Prop :=
  c.parentEventId = none → eventType.val ∈ documentedRootEventTypes ∧ c.rootEventId = eventId

theorem causalityOk_iff {eventId eventType : Text} {c : Causality} :
    (c.parentEventId = none →
      documentedRootEventTypes.contains eventType.val = true ∧ c.rootEventId = eventId) ↔
    CausalityOk eventId eventType c := by
  simp only [CausalityOk, List.contains_iff_mem]

instance (eventId eventType : Text) (c : Causality) :
    Decidable (CausalityOk eventId eventType c) :=
  decidable_of_iff _ causalityOk_iff

structure EventEnvelope where
  eventId : Text
  eventType : Text
  occurredAt : DateTime
  observedAt : DateTime
  source : Source
  correlation : Correlation
  causality : Causality
  principal : Principal
  classification : Classification
  payload : Payload
  integrity : IntegrityMetadata
  causalityOk : CausalityOk eventId eventType causality

/-! ## `model_dump(mode="json")` -/

def optText : Option Text → Value
  | none => .null
  | some t => .str t.val

def Source.items (s : Source) : Obj :=
  [(lit "component", .str s.component.val), (lit "instance_id", .str s.instanceId.val),
   (lit "version", .str s.version.val)]

def Correlation.items (c : Correlation) : Obj :=
  [(lit "trace_id", .str c.traceId.val), (lit "run_id", .str c.runId.val),
   (lit "span_id", optText c.spanId), (lit "session_id", optText c.sessionId)]

def Causality.items (c : Causality) : Obj :=
  [(lit "root_event_id", .str c.rootEventId.val), (lit "sequence", .int c.sequence),
   (lit "parent_event_id", optText c.parentEventId)]

def Principal.items (p : Principal) : Obj :=
  [(lit "principal_id", .str p.principalId.val), (lit "principal_type", .str p.principalType.text),
   (lit "on_behalf_of", optText p.onBehalfOf), (lit "model_id", optText p.modelId),
   (lit "credential_id", optText p.credentialId)]

def Classification.items (c : Classification) : Obj :=
  [(lit "sensitivity", .str c.sensitivity.text), (lit "trust", .str c.trust.text)]

def IntegrityMetadata.items (i : IntegrityMetadata) : Obj :=
  [(lit "canonicalization", .str i.canonicalization),
   (lit "previous_event_hash", optText i.previousEventHash), (lit "event_hash", optText i.eventHash)]

def Source.json (s : Source) : Value := .dict s.items

def Correlation.json (c : Correlation) : Value := .dict c.items

def Causality.json (c : Causality) : Value := .dict c.items

def Principal.json (p : Principal) : Value := .dict p.items

def Classification.json (c : Classification) : Value := .dict c.items

def IntegrityMetadata.json (i : IntegrityMetadata) : Value := .dict i.items

/-- The event object around an already dumped payload. -/
def EventEnvelope.items (e : EventEnvelope) (payload : Obj) : Obj :=
  [(lit "spec_version", .str SPEC_VERSION), (lit "event_id", .str e.eventId.val),
   (lit "event_type", .str e.eventType.val), (lit "occurred_at", .str e.occurredAt.isoZ),
   (lit "observed_at", .str e.observedAt.isoZ), (lit "source", e.source.json),
   (lit "correlation", e.correlation.json), (lit "causality", e.causality.json),
   (lit "principal", e.principal.json), (lit "classification", e.classification.json),
   (lit "payload", .dict payload), (lit "integrity", e.integrity.json)]

def modelJson (P : Platform) (e : EventEnvelope) : Except PyError Obj := do
  .ok (e.items (← P.dumpPayload e.payload.items))

/-! ## `model_validate` -/

section Validate

variable (P : Platform)

/-- A `str` with `min_length=1`. -/
def readText (v : Value) : Option Text :=
  match v with
  | .str s => if h : s ≠ [] ∧ P.strOk s = true then some ⟨s, h.1⟩ else none
  | _ => none

/-- A `str | None` with `min_length=1` and default `None`. -/
def readOptText (v : Option Value) : Option (Option Text) :=
  match v with
  | none => some none
  | some .null => some none
  | some v => (readText P v).map some

def readEnum {α : Type} (all : List α) (text : α → Str) (v : Value) : Option α :=
  match v with
  | .str s => enumOf all text s
  | _ => none

/-- An enumeration field with a default. -/
def readEnumOr {α : Type} (default : α) (all : List α) (text : α → Str) (v : Option Value) :
    Option α :=
  match v with
  | none => some default
  | some v => readEnum all text v

/-- The items of a model's object; unknown fields are refused. -/
def readFields (fields : List Str) (v : Value) : Option Obj :=
  match v with
  | .dict kvs => if (Obj.keys kvs).all fun k => fields.contains k then some kvs else none
  | _ => none

def readSource (v : Value) : Option Source := do
  let o ← readFields [lit "component", lit "instance_id", lit "version"] v
  let component ← (o.get? (lit "component")).bind (readText P)
  let instanceId ← (o.get? (lit "instance_id")).bind (readText P)
  let version ← (o.get? (lit "version")).bind (readText P)
  some ⟨component, instanceId, version⟩

def readCorrelation (v : Value) : Option Correlation := do
  let o ← readFields [lit "trace_id", lit "run_id", lit "span_id", lit "session_id"] v
  let traceId ← (o.get? (lit "trace_id")).bind (readText P)
  let runId ← (o.get? (lit "run_id")).bind (readText P)
  let spanId ← readOptText P (o.get? (lit "span_id"))
  let sessionId ← readOptText P (o.get? (lit "session_id"))
  some ⟨traceId, runId, spanId, sessionId⟩

/-- An `int` with `ge=0`. -/
def readNatural (v : Value) : Option Nat :=
  (P.parseInt v).bind fun i => if 0 ≤ i then some i.toNat else none

def readCausality (v : Value) : Option Causality := do
  let o ← readFields [lit "root_event_id", lit "sequence", lit "parent_event_id"] v
  let rootEventId ← (o.get? (lit "root_event_id")).bind (readText P)
  let sequence ← (o.get? (lit "sequence")).bind (readNatural P)
  let parentEventId ← readOptText P (o.get? (lit "parent_event_id"))
  some ⟨rootEventId, sequence, parentEventId⟩

def readPrincipal (v : Value) : Option Principal := do
  let o ← readFields [lit "principal_id", lit "principal_type", lit "on_behalf_of",
    lit "model_id", lit "credential_id"] v
  let principalId ← (o.get? (lit "principal_id")).bind (readText P)
  let principalType ← (o.get? (lit "principal_type")).bind
    (readEnum PrincipalType.all PrincipalType.text)
  let onBehalfOf ← readOptText P (o.get? (lit "on_behalf_of"))
  let modelId ← readOptText P (o.get? (lit "model_id"))
  let credentialId ← readOptText P (o.get? (lit "credential_id"))
  some ⟨principalId, principalType, onBehalfOf, modelId, credentialId⟩

def readClassification (v : Value) : Option Classification := do
  let o ← readFields [lit "sensitivity", lit "trust"] v
  let sensitivity ← readEnumOr .unknown Sensitivity.all Sensitivity.text
    (o.get? (lit "sensitivity"))
  let trust ← readEnumOr .unknown TrustLevel.all TrustLevel.text (o.get? (lit "trust"))
  some ⟨sensitivity, trust⟩

/-- An unconstrained `str` with default `CANONICALIZATION_VERSION`. -/
def readCanonicalization (v : Option Value) : Option Str :=
  match v with
  | none => some CANONICALIZATION_VERSION
  | some (.str s) => some s
  | some _ => none

def readIntegrity (v : Option Value) : Option IntegrityMetadata :=
  match v with
  | none => some .default
  | some v => do
    let o ← readFields [lit "canonicalization", lit "previous_event_hash", lit "event_hash"] v
    let canonicalization ← readCanonicalization (o.get? (lit "canonicalization"))
    let previousEventHash ← readOptText P (o.get? (lit "previous_event_hash"))
    let eventHash ← readOptText P (o.get? (lit "event_hash"))
    some ⟨canonicalization, previousEventHash, eventHash⟩

/-- `require_json_payload`: validate, then freeze. -/
def requireJsonPayload (kvs : Obj) : Option Payload :=
  if h : validateJsonValue .default 0 (.dict kvs) = .ok () then
    some
      { items := dictOf (freezeMembers kvs)
        wellFormed := freezeJsonValue_wellFormed (.dict kvs)
        fits := fits_freezeJsonValue ((walkJson_eq_ok _ _).mp h) }
  else none

/-- A `Mapping[str, Any]` with default `{}`. -/
def readPayload (v : Option Value) : Option Payload :=
  match v with
  | none => requireJsonPayload []
  | some (.dict kvs) => requireJsonPayload kvs
  | some _ => none

/-- An aware timestamp in UTC; `none` is a failed check. -/
def readTimestamp (v : Option Value) : Except PyError (Option DateTime) :=
  match v.bind P.parseDatetime with
  | none => .ok none
  | some (_, none) => .ok none
  | some (d, some offset) =>
    match d.ofLocal offset with
    | some utc => .ok (some utc)
    | none => .error (.overflowError "date value out of range")

def eventFields : List Str :=
  [lit "spec_version", lit "event_id", lit "event_type", lit "occurred_at", lit "observed_at",
   lit "source", lit "correlation", lit "causality", lit "principal", lit "classification",
   lit "payload", lit "integrity"]

/-- A `Literal` field with its value as default. -/
def specVersionOk (v : Option Value) : Bool :=
  match v with
  | none => true
  | some (.str s) => s == SPEC_VERSION
  | some _ => false

def readEvent (v : Value) (occurredAt observedAt : Option DateTime) : Option EventEnvelope := do
  let o ← readFields eventFields v
  if specVersionOk (o.get? (lit "spec_version")) then
    let eventId ← (o.get? (lit "event_id")).bind (readText P)
    let eventType ← (o.get? (lit "event_type")).bind (readText P)
    let occurredAt ← occurredAt
    let observedAt ← observedAt
    let source ← (o.get? (lit "source")).bind (readSource P)
    let correlation ← (o.get? (lit "correlation")).bind (readCorrelation P)
    let causality ← (o.get? (lit "causality")).bind (readCausality P)
    let principal ← (o.get? (lit "principal")).bind (readPrincipal P)
    let classification ← (o.get? (lit "classification")).bind readClassification
    let payload ← readPayload (o.get? (lit "payload"))
    let integrity ← readIntegrity P (o.get? (lit "integrity"))
    if h : CausalityOk eventId eventType causality then
      some ⟨eventId, eventType, occurredAt, observedAt, source, correlation, causality, principal,
        classification, payload, integrity, h⟩
    else none
  else none

/-- `d.get(k)` of a value that may not be a dict. -/
def getField (v : Value) (k : Str) : Option Value :=
  match v with
  | .dict kvs => Obj.get? kvs k
  | _ => none

def modelValidate (v : Value) : Except PyError EventEnvelope := do
  let occurredAt ← readTimestamp P (getField v (lit "occurred_at"))
  let observedAt ← readTimestamp P (getField v (lit "observed_at"))
  match readEvent P v occurredAt observedAt with
  | some e => .ok e
  | none => .error .validationError

end Validate

end ActionLineage
