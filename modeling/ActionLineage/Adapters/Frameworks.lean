import ActionLineage.Evidence.Ingestion

/-!
# Framework adapter evidence

A tool call of an agent framework becomes two or three evidence records: it was requested, and then
either it was not dispatched, or it was dispatched and perhaps acknowledged. The records are listed
in that order; each carries a sort key of its own, under which an import orders them.
-/

namespace ActionLineage

open Py

/-! ## Enumerations -/

inductive FrameworkKind
  | openaiAgents | langchain | llamaindex | crewai | shell | browser | localFunction | unknown
deriving DecidableEq, Repr

def FrameworkKind.text : FrameworkKind → Str
  | openaiAgents => lit "openai_agents"
  | langchain => lit "langchain"
  | llamaindex => lit "llamaindex"
  | crewai => lit "crewai"
  | shell => lit "shell"
  | browser => lit "browser"
  | localFunction => lit "local_function"
  | unknown => lit "unknown"

inductive FrameworkAcknowledgementStatus
  | succeeded | failed | timedOut | cancelled | unknown
deriving DecidableEq, Repr

def FrameworkAcknowledgementStatus.text : FrameworkAcknowledgementStatus → Str
  | succeeded => lit "succeeded"
  | failed => lit "failed"
  | timedOut => lit "timed_out"
  | cancelled => lit "cancelled"
  | unknown => lit "unknown"

/-! ## JSON objects -/

/-- A JSON-shaped value no dict of which holds one key twice. -/
abbrev JsonValue := { v : Value // v.WellFormed }

/-- A `dict[str, Any]` of such values. -/
structure JsonObject where
  items : Obj
  wellFormed : (Value.dict items).WellFormed

namespace JsonObject

def value (o : JsonObject) : JsonValue := ⟨.dict o.items, o.wellFormed⟩

/-- A dict literal; fields that are `none` are left out. -/
def ofFields (fields : List (Str × Option JsonValue))
    (h : decide (fields.map Prod.fst).Nodup = true := by rfl) : JsonObject where
  items := fields.filterMap fun p => p.2.map fun v => (p.1, v.val)
  wellFormed := by
    refine (Value.all_dict _).mpr ⟨?_, fun p hp => ?_⟩
    · refine (of_decide_eq_true h).sublist ?_
      clear h
      induction fields with
      | nil => exact .slnil
      | cons p fields ih =>
        obtain ⟨key, _ | v⟩ := p
        · exact .cons _ ih
        · exact .cons_cons _ ih
    · obtain ⟨⟨key, v⟩, -, hv⟩ := List.mem_filterMap.mp hp
      obtain ⟨w, -, rfl⟩ := Option.map_eq_some_iff.mp hv
      exact w.property

/-- `{**o, key: v}`. -/
def set (o : JsonObject) (key : Str) (v : JsonValue) : JsonObject where
  items := Obj.set o.items key v.val
  wellFormed := by
    obtain ⟨hkeys, hitems⟩ := (Value.all_dict _).mp o.wellFormed
    refine (Value.all_dict _).mpr ⟨?_, fun p hp => ?_⟩
    · show (Obj.keys (Obj.set o.items key v.val)).Nodup
      rw [Obj.keys_set]
      split
      · exact hkeys
      · rename_i hnew
        exact List.nodup_append.mpr ⟨hkeys, List.nodup_singleton key, by
          intro a ha b hb
          rintro rfl
          exact hnew (List.mem_singleton.mp hb ▸ ha)⟩
    · rcases Obj.mem_set.mp hp with rfl | ⟨hp, -⟩
      · exact v.property
      · exact hitems p hp

end JsonObject

def jsonNull : JsonValue := ⟨.null, trivial⟩

def jsonText (s : Str) : JsonValue := ⟨.str s, trivial⟩

def jsonBool (b : Bool) : JsonValue := ⟨.bool b, trivial⟩

def jsonList (xs : List JsonValue) : JsonValue :=
  ⟨.list (xs.map Subtype.val), (Value.all_list _).mpr fun x hx => by
    obtain ⟨w, -, rfl⟩ := List.mem_map.mp hx
    exact w.property⟩

/-- A value that was validated at construction. -/
def Payload.object (p : Payload) : JsonObject := ⟨p.items, p.wellFormed⟩

/-! ## Evidence models -/

structure ToolIdentity where
  name : Text
  descriptorHash : Option Text
  adapter : Option Text
  version : Option Text

structure DelegatedIdentity where
  initiatingPrincipalId : Text
  executingPrincipalId : Text
  credentialId : Option Text
  scopes : List Text

structure NormalizedResource where
  resourceType : ResourceType
  identifier : Text
  attributes : JsonObject

structure NormalizedAction where
  actionType : Text
  resources : List NormalizedResource
  toolIdentity : Option ToolIdentity
  delegatedIdentity : Option DelegatedIdentity
  attributes : JsonObject

section Dump

variable (P : Platform)

/-- `model_dump(mode="json")` of a `dict[str, Any]`. -/
def JsonObject.dump (o : JsonObject) : Except PyError JsonObject :=
  match h : P.dumpPayload o.items with
  | .ok dumped => .ok ⟨dumped, P.dumpPayload_wellFormed _ _ o.wellFormed h⟩
  | .error exc => .error exc

def ToolIdentity.asPayload (t : ToolIdentity) : JsonObject :=
  .ofFields
    [(lit "name", jsonText t.name.val),
     (lit "descriptor_hash", t.descriptorHash.map fun s => jsonText s.val),
     (lit "adapter", t.adapter.map fun s => jsonText s.val),
     (lit "version", t.version.map fun s => jsonText s.val)]

def DelegatedIdentity.asPayload (d : DelegatedIdentity) : JsonObject :=
  .ofFields
    [(lit "initiating_principal_id", jsonText d.initiatingPrincipalId.val),
     (lit "executing_principal_id", jsonText d.executingPrincipalId.val),
     (lit "credential_id", d.credentialId.map fun s => jsonText s.val),
     (lit "scopes", jsonList (d.scopes.map fun s => jsonText s.val))]

def NormalizedResource.asPayload (r : NormalizedResource) : Except PyError JsonObject := do
  let attributes ← r.attributes.dump P
  .ok (.ofFields
    [(lit "resource_type", jsonText r.resourceType.text),
     (lit "identifier", jsonText r.identifier.val), (lit "attributes", attributes.value)])

def NormalizedAction.asPayload (a : NormalizedAction) : Except PyError JsonObject := do
  let resources ← a.resources.mapM (NormalizedResource.asPayload P)
  let attributes ← a.attributes.dump P
  .ok (.ofFields
    [(lit "action_type", jsonText a.actionType.val),
     (lit "resources", jsonList (resources.map JsonObject.value)),
     (lit "tool_identity", a.toolIdentity.map fun t => t.asPayload.value),
     (lit "delegated_identity", a.delegatedIdentity.map fun d => d.asPayload.value),
     (lit "attributes", attributes.value)])

end Dump

/-! ## Descriptors and invocations -/

structure FrameworkToolDescriptor where
  framework : FrameworkKind
  toolName : Text
  description : Str
  inputSchema : Payload
  serverIdentity : Option Str
  outputSchema : Option Payload
  version : Option Str
  annotations : Payload
  metadata : Payload

structure FrameworkToolInvocation where
  descriptor : FrameworkToolDescriptor
  invocationId : Text
  actionType : Text
  argumentsDigest : Text
  resources : List NormalizedResource
  delegatedIdentity : Option DelegatedIdentity
  attributes : Payload

/-- The keyword arguments of `framework_lifecycle_records` that say how the call went. -/
structure FrameworkOutcome where
  acknowledgementStatus : Option FrameworkAcknowledgementStatus := none
  resultDigest : Option Str := none
  resultSummary : Option JsonObject := none
  notDispatchedReason : Option Str := none

def FrameworkToolDescriptor.canonicalObject (d : FrameworkToolDescriptor) : JsonObject :=
  .ofFields
    [(lit "adapter", jsonText (lit "framework")), (lit "framework", jsonText d.framework.text),
     (lit "tool_name", jsonText d.toolName.val), (lit "description", jsonText d.description),
     (lit "input_schema", d.inputSchema.object.value),
     (lit "output_schema", (d.outputSchema.map fun s => s.object.value).getD jsonNull),
     (lit "annotations", d.annotations.object.value), (lit "metadata", d.metadata.object.value),
     (lit "server_identity", d.serverIdentity.map jsonText),
     (lit "version", d.version.map jsonText)]

/-- `idempotency_prefix`. -/
def FrameworkToolInvocation.idempotencyPrefix (i : FrameworkToolInvocation) : Str :=
  lit "framework:" ++ i.descriptor.framework.text ++ lit ":" ++ i.invocationId.val

/-! ## Payloads -/

section Records

variable (P : Platform)

def frameworkDescriptorHash (d : FrameworkToolDescriptor) : Except PyError Str := do
  .ok (P.sha256Digest (← deterministicJsonBytes (.dict d.canonicalObject.items)))

def frameworkToolIdentity (d : FrameworkToolDescriptor) : Except PyError JsonObject := do
  let descriptorHash ← frameworkDescriptorHash P d
  .ok (.ofFields
    [(lit "adapter", jsonText (lit "framework")), (lit "framework", jsonText d.framework.text),
     (lit "name", jsonText d.toolName.val), (lit "descriptor_hash", jsonText descriptorHash),
     (lit "server_identity", d.serverIdentity.map jsonText),
     (lit "version", d.version.map jsonText)])

/-- `_invocation_payload`. -/
def invocationPayload (i : FrameworkToolInvocation) : JsonObject :=
  .ofFields
    [(lit "invocation_id", jsonText i.invocationId.val),
     (lit "framework", jsonText i.descriptor.framework.text),
     (lit "arguments_digest", jsonText i.argumentsDigest.val)]

/-- The `ToolIdentity(...)` and `NormalizedAction(...)` of a request. -/
def frameworkAction (i : FrameworkToolInvocation) (descriptorHash : Str) :
    Except PyError NormalizedAction :=
  validated do
    let name ← readText P (.str i.descriptor.toolName.val)
    let descriptorHash ← readText P (.str descriptorHash)
    let adapter ← readText P (.str (lit "framework:" ++ i.descriptor.framework.text))
    let version ← readOptText P (i.descriptor.version.map .str)
    let actionType ← readText P (.str i.actionType.val)
    some
      { actionType, resources := i.resources
        toolIdentity := some ⟨name, some descriptorHash, some adapter, version⟩
        delegatedIdentity := i.delegatedIdentity, attributes := i.attributes.object }

/-- `_request_payload`. -/
def requestPayload (i : FrameworkToolInvocation) : Except PyError JsonObject := do
  let action ← frameworkAction P i (← frameworkDescriptorHash P i.descriptor)
  let toolIdentity ← frameworkToolIdentity P i.descriptor
  let action ← action.asPayload P
  .ok (.ofFields
    [(lit "tool_identity", toolIdentity.value),
     (lit "descriptor", i.descriptor.canonicalObject.value),
     (lit "framework_invocation", (invocationPayload i).value), (lit "action", action.value)])

/-- `_dispatch_payload`. -/
def dispatchPayload (i : FrameworkToolInvocation) : Except PyError JsonObject := do
  let toolIdentity ← frameworkToolIdentity P i.descriptor
  let dispatch : JsonObject := .ofFields
    [(lit "state", jsonText (lit "dispatched")), (lit "adapter", jsonText (lit "framework")),
     (lit "framework", jsonText i.descriptor.framework.text)]
  .ok (.ofFields
    [(lit "tool_identity", toolIdentity.value),
     (lit "framework_invocation", (invocationPayload i).value), (lit "dispatch", dispatch.value)])

/-- `_acknowledgement_payload`. -/
def acknowledgementPayload (i : FrameworkToolInvocation) (status : FrameworkAcknowledgementStatus)
    (outcome : FrameworkOutcome) : Except PyError JsonObject := do
  let acknowledgement : JsonObject := .ofFields
    [(lit "status", jsonText status.text), (lit "side_effect_status", jsonText (lit "unverified")),
     (lit "note", jsonText (lit "Framework tool acknowledgement is not side-effect verification")),
     (lit "result_digest", outcome.resultDigest.map jsonText),
     (lit "result_summary", outcome.resultSummary.map JsonObject.value)]
  let toolIdentity ← frameworkToolIdentity P i.descriptor
  .ok (.ofFields
    [(lit "tool_identity", toolIdentity.value),
     (lit "framework_invocation", (invocationPayload i).value),
     (lit "acknowledgement", acknowledgement.value)])

/-- `_not_dispatched_payload`. -/
def notDispatchedPayload (i : FrameworkToolInvocation) (reason : Str) :
    Except PyError JsonObject := do
  require (decide (reason ≠ [])) (.valueError "not_dispatched_reason is required")
  let toolIdentity ← frameworkToolIdentity P i.descriptor
  let notDispatched : JsonObject := .ofFields
    [(lit "reason", jsonText reason), (lit "downstream_forwarded", jsonBool false)]
  .ok (.ofFields
    [(lit "tool_identity", toolIdentity.value),
     (lit "framework_invocation", (invocationPayload i).value),
     (lit "not_dispatched", notDispatched.value)])

/-! ## Records -/

/-- `_record`. -/
def lifecycleRecord (i : FrameworkToolInvocation) (eventType lifecycle : Str) (payload : JsonObject)
    (sortKeyPrefix : Str) : Except PyError EvidenceRecord := do
  validateJsonValue .default 0 (.dict payload.items)
  validated do
    let idempotencyKey ← readText P (.str (i.idempotencyPrefix ++ lit ":" ++ lifecycle))
    let sortKey := sortKeyPrefix ++ i.invocationId.val ++ lit ":" ++ lifecycle
    if P.strOk sortKey then
      some
        { idempotencyKey, eventType, payload := payload.items, sourceKind := .externalJson, sortKey
          wellFormed := payload.wellFormed }
    else none

/-- `validate_json_value(result_summary)`, if there is one. -/
def FrameworkOutcome.validateSummary (outcome : FrameworkOutcome) : Except PyError Unit :=
  match outcome.resultSummary with
  | some summary => validateJsonValue .default 0 (.dict summary.items)
  | none => .ok ()

def frameworkLifecycleRecords (i : FrameworkToolInvocation) (outcome : FrameworkOutcome)
    (sortKeyPrefix : Str) : Except PyError (List EvidenceRecord) := do
  outcome.validateSummary
  let requested ← lifecycleRecord P i (lit "tool.execution.requested") (lit "requested")
    (← requestPayload P i) sortKeyPrefix
  match outcome.notDispatchedReason with
  | some reason =>
    let notDispatched ← lifecycleRecord P i (lit "tool.execution.not_dispatched")
      (lit "not_dispatched") (← notDispatchedPayload P i reason) sortKeyPrefix
    .ok [requested, notDispatched]
  | none =>
    let dispatched ← lifecycleRecord P i (lit "tool.execution.dispatched") (lit "dispatched")
      (← dispatchPayload P i) sortKeyPrefix
    match outcome.acknowledgementStatus with
    | some status =>
      let acknowledged ← lifecycleRecord P i (lit "tool.execution.acknowledged")
        (lit "acknowledged") (← acknowledgementPayload P i status outcome) sortKeyPrefix
      .ok [requested, dispatched, acknowledged]
    | none => .ok [requested, dispatched]

end Records

end ActionLineage
