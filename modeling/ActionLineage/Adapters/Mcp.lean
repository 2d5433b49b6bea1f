import ActionLineage.Adapters.Policy
import ActionLineage.Journal.Append

/-!
# The MCP adapter

A call of an MCP tool is planned from the policy decision alone: the plan holds the payloads of the
events to record and says whether to dispatch. `executeMcpToolCall` records them, calls the tool
behind the adapter, and records its acknowledgement. The state of the run is the normalizer, the
journal, and the calls that were made, each with the journal as it was at that moment.
-/

namespace ActionLineage.Mcp

open Py

/-! ## Tool descriptors -/

structure McpToolDescriptor where
  serverIdentity : Str
  name : Str
  description : Str
  inputSchema : JsonObject
  outputSchema : Option JsonObject := none
  annotations : JsonObject
  metadata : JsonObject
  serverIdentity_ne : serverIdentity ≠ []
  name_ne : name ≠ []
  /-- Every schema was validated at construction. -/
  validated : ∀ o ∈ [inputSchema, annotations, metadata] ++ outputSchema.toList,
    validateJsonValue .default 0 o.value.val = .ok ()

namespace McpToolDescriptor

def canonicalObject (d : McpToolDescriptor) : JsonObject :=
  .ofFields
    [(lit "adapter", some (jsonText (lit "mcp"))),
     (lit "server_identity", some (jsonText d.serverIdentity)),
     (lit "name", some (jsonText d.name)),
     (lit "description", some (jsonText d.description)),
     (lit "input_schema", some d.inputSchema.value),
     (lit "output_schema", some ((d.outputSchema.map JsonObject.value).getD jsonNull)),
     (lit "annotations", some d.annotations.value),
     (lit "metadata", some d.metadata.value)]

end McpToolDescriptor

section Descriptor

variable (P : Platform)

def descriptorHash (d : McpToolDescriptor) : Except PyError Str := do
  .ok (P.sha256Digest (← deterministicJsonBytes d.canonicalObject.value.val))

def toolIdentity (d : McpToolDescriptor) : Except PyError JsonObject := do
  .ok (.ofFields
    [(lit "adapter", some (jsonText (lit "mcp"))),
     (lit "server_identity", some (jsonText d.serverIdentity)),
     (lit "name", some (jsonText d.name)),
     (lit "descriptor_hash", some (jsonText (← descriptorHash P d)))])

def descriptorPayload (d : McpToolDescriptor) (argumentsDigest : Option Str) :
    Except PyError JsonObject := do
  .ok (.ofFields
    [(lit "tool_identity", some (← toolIdentity P d).value),
     (lit "descriptor", some d.canonicalObject.value),
     (lit "arguments_digest", argumentsDigest.map jsonText)])

end Descriptor

/-! ## The plan -/

inductive McpTransportKind
  | streamableHttp | stdio
deriving DecidableEq, Repr

def McpTransportKind.text : McpTransportKind → Str
  | streamableHttp => lit "streamable_http"
  | stdio => lit "stdio"

/-- The event types of a lifecycle. -/
inductive McpEventType
  | requested | policyDecision | authorized | dispatched | notDispatched | degraded | acknowledged
deriving DecidableEq, Repr

def McpEventType.text : McpEventType → Str
  | requested => lit "tool.execution.requested"
  | policyDecision => lit "policy.decision"
  | authorized => lit "tool.execution.authorized"
  | dispatched => lit "tool.execution.dispatched"
  | notDispatched => lit "tool.execution.not_dispatched"
  | degraded => lit "recorder.degraded"
  | acknowledged => lit "tool.execution.acknowledged"

structure McpExecutionPlan where
  shouldDispatch : Bool
  requestedPayload : JsonObject
  policyPayload : JsonObject
  authorizedPayload : Option JsonObject
  dispatchPayload : Option JsonObject
  notDispatchedPayload : Option JsonObject
  degradedPayload : Option JsonObject

namespace McpExecutionPlan

/-- The pairs `_append_plan_events` goes through. -/
def events (plan : McpExecutionPlan) : List (McpEventType × Option JsonObject) :=
  [(.requested, some plan.requestedPayload), (.policyDecision, some plan.policyPayload),
   (.authorized, plan.authorizedPayload), (.dispatched, plan.dispatchPayload),
   (.notDispatched, plan.notDispatchedPayload), (.degraded, plan.degradedPayload)]

def lifecycleEventTypes (plan : McpExecutionPlan) : List McpEventType :=
  [.requested, .policyDecision]
    ++ (if plan.authorizedPayload.isSome then [.authorized] else [])
    ++ (if plan.dispatchPayload.isSome then [.dispatched] else [])
    ++ (if plan.notDispatchedPayload.isSome then [.notDispatched] else [])
    ++ (if plan.degradedPayload.isSome then [.degraded] else [])

end McpExecutionPlan

/-- `_json_object`. -/
def jsonObject (o : JsonObject) : Except PyError JsonObject := do
  validateJsonValue .default 0 o.value.val
  .ok o

/-- `_not_dispatched_reason`. -/
def notDispatchedReason (policyDecision : PolicyDecision)
    (approvalResult : Option ApprovalValidationResult) : Str :=
  if approvalResult.any fun r => !r.accepted then lit "approval_rejected"
  else lit "policy_" ++ policyDecision.outcome.text

/-- The arguments of one `execute_mcp_tool_call`. -/
structure McpToolCall where
  descriptor : McpToolDescriptor
  arguments : JsonObject
  argumentsDigest : Str
  callId : Str
  transport : McpTransportKind
  policyDecision : PolicyDecision
  failureMode : PolicyFailureMode := .failClosed
  approvalResult : Option ApprovalValidationResult := none

namespace McpToolCall

def approvalAccepted (call : McpToolCall) : Bool := call.approvalResult.any (·.accepted)

def shouldDispatch (call : McpToolCall) : Bool :=
  call.policyDecision.dispatchAllowed call.failureMode call.approvalAccepted

end McpToolCall

section Plan

variable (P : Platform)

/-- The policy payload, with the approval when there is one. -/
def policyPayload (call : McpToolCall) : Except PyError JsonObject := do
  let payload ← jsonObject call.policyDecision.asPayload
  match call.approvalResult with
  | none => .ok payload
  | some result => .ok (payload.set (lit "approval") (← jsonObject result.asPayload).value)

def authorizedPayload (call : McpToolCall) (policyPayload : JsonObject) :
    Except PyError JsonObject := do
  jsonObject (.ofFields
    [(lit "tool_identity", some (← toolIdentity P call.descriptor).value),
     (lit "authorization", some (JsonObject.ofFields
       [(lit "outcome", some (jsonText (lit "authorized"))),
        (lit "policy_decision", some policyPayload.value),
        (lit "approval_accepted", some (jsonBool call.approvalAccepted))]).value)])

def dispatchPayload (call : McpToolCall) : Except PyError JsonObject := do
  jsonObject (.ofFields
    [(lit "tool_identity", some (← toolIdentity P call.descriptor).value),
     (lit "dispatch", some (JsonObject.ofFields
       [(lit "state", some (jsonText (lit "dispatched"))),
        (lit "transport", some (jsonText call.transport.text)),
        (lit "call_id", some (jsonText call.callId))]).value)])

def notDispatchedPayload (call : McpToolCall) : Except PyError JsonObject := do
  jsonObject (.ofFields
    [(lit "tool_identity", some (← toolIdentity P call.descriptor).value),
     (lit "not_dispatched", some (JsonObject.ofFields
       [(lit "reason", some (jsonText (notDispatchedReason call.policyDecision call.approvalResult))),
        (lit "downstream_forwarded", some (jsonBool false)),
        (lit "call_id", some (jsonText call.callId))]).value)])

/-- The payloads of the branch that is taken: authorized, dispatched, not dispatched. -/
def branchPayloads (call : McpToolCall) (policyPayload : JsonObject) :
    Except PyError (Option JsonObject × Option JsonObject × Option JsonObject) :=
  if call.shouldDispatch then do
    let authorized ← authorizedPayload P call policyPayload
    let dispatch ← dispatchPayload P call
    .ok (some authorized, some dispatch, none)
  else do
    let notDispatched ← notDispatchedPayload P call
    .ok (none, none, some notDispatched)

def degradedPayload (call : McpToolCall) : Except PyError (Option JsonObject) :=
  if call.policyDecision.outcome = .error then do
    let degraded ← jsonObject (.ofFields
      [(lit "degraded_component", some (jsonText (lit "policy_adapter"))),
       (lit "failure_mode", some (jsonText call.failureMode.text)),
       (lit "risk_class", some (jsonText call.policyDecision.riskClass.text)),
       (lit "reason", some (jsonText call.policyDecision.reason)),
       (lit "dispatch_allowed", some (jsonBool call.shouldDispatch))])
    .ok (some degraded)
  else .ok none

def planMcpToolExecution (call : McpToolCall) : Except PyError McpExecutionPlan := do
  let requested ← descriptorPayload P call.descriptor (some call.argumentsDigest)
  let policy ← policyPayload call
  let (authorized, dispatch, notDispatched) ← branchPayloads P call policy
  let degraded ← degradedPayload call
  .ok
    { shouldDispatch := call.shouldDispatch
      requestedPayload := (requested.set (lit "call_id") (jsonText call.callId)).set
        (lit "transport") (jsonText call.transport.text)
      policyPayload := policy
      authorizedPayload := authorized
      dispatchPayload := dispatch
      notDispatchedPayload := notDispatched
      degradedPayload := degraded }

end Plan

/-! ## The execution -/

structure McpDownstreamResult where
  status : Str
  resultDigest : Option Str := none
  resultPayload : Option JsonObject := none

/-- What the tool behind the adapter raises: a `ValueError`, or an `Exception` of another type. -/
inductive DownstreamFailure
  | valueError
  | exception (typeName : Str)

abbrev McpDownstreamCallable :=
  McpToolDescriptor → JsonObject → Except DownstreamFailure McpDownstreamResult

/-- A call of the tool, and the journal when it was made. -/
structure DownstreamCall where
  descriptor : McpToolDescriptor
  arguments : JsonObject
  journal : Content

structure McpRuntime where
  normalizer : EvidenceNormalizer
  content : Content
  calls : List DownstreamCall

abbrev McpRun := Raising PyError McpRuntime

structure McpProxyExecutionResult where
  dispatched : Bool
  downstreamCalled : Bool
  eventIds : List Text
  acknowledgementEventId : Option Text := none
  acknowledgementStatus : Option Str := none

section Execute

variable (P : Platform) (policy : RedactionPolicy)

def validateResult : Option JsonObject → Except PyError Unit
  | none => .ok ()
  | some payload => validateJsonValue .default 0 payload.value.val

def acknowledgementPayload (d : McpToolDescriptor) (callId status : Str)
    (resultDigest : Option Str) (resultPayload : Option JsonObject) : Except PyError JsonObject := do
  validateResult resultPayload
  jsonObject (.ofFields
    [(lit "tool_identity", some (← toolIdentity P d).value),
     (lit "acknowledgement", some (JsonObject.ofFields
       [(lit "status", some (jsonText status)),
        (lit "call_id", some (jsonText callId)),
        (lit "side_effect_status", some (jsonText (lit "unverified"))),
        (lit "note", some (jsonText
          (lit "MCP tool acknowledgement is not side-effect verification"))),
        (lit "result_digest", resultDigest.map jsonText),
        (lit "result", resultPayload.map JsonObject.value)]).value)])

/-- `type(exc).__name__` of what can come out of `acknowledgement_payload` and is no
`ValueError`. -/
def raisedTypeName : PyError → Str
  | .typeError _ => lit "TypeError"
  | .recursionError => lit "RecursionError"
  | _ => lit "Exception"

/-- The acknowledgement of a call that raised a `ValueError`. -/
def malformedResult (d : McpToolDescriptor) (callId : Str) : Except PyError JsonObject :=
  acknowledgementPayload P d callId (lit "failed") none
    (some (.ofFields [(lit "error", some (jsonText (lit "malformed_downstream_result")))]))

/-- The acknowledgement of a call that raised another exception. -/
def failedExecution (d : McpToolDescriptor) (callId typeName : Str) : Except PyError JsonObject :=
  acknowledgementPayload P d callId (lit "failed") none
    (some (.ofFields
      [(lit "error", some (jsonText (lit "downstream_execution_failed"))),
       (lit "error_type", some (jsonText typeName))]))

/-- What `_call_downstream` makes of the answer of the tool. -/
def acknowledgementOf (call : McpToolCall) (answer : Except DownstreamFailure McpDownstreamResult) :
    Except PyError JsonObject :=
  match answer with
  | .error .valueError => malformedResult P call.descriptor call.callId
  | .error (.exception typeName) => failedExecution P call.descriptor call.callId typeName
  | .ok result =>
    match acknowledgementPayload P call.descriptor call.callId result.status result.resultDigest
        result.resultPayload with
    | .ok payload => .ok payload
    | .error exc =>
      if exc.isValueError then malformedResult P call.descriptor call.callId
      else failedExecution P call.descriptor call.callId (raisedTypeName exc)

/-- `_call_downstream`. -/
def callDownstream (call : McpToolCall) (downstream : McpDownstreamCallable) :
    McpRun JsonObject := do
  .modify fun s => { s with calls := s.calls ++ [⟨call.descriptor, call.arguments, s.content⟩] }
  .ofResult (acknowledgementOf P call (downstream call.descriptor call.arguments))

/-- `journal.append(normalizer.record(event_type, payload))`: the id of the event. -/
def appendEvidence (eventType : McpEventType) (payload : JsonObject) : McpRun Text := fun s =>
  match EvidenceNormalizer.record P eventType.text payload.items {} s.normalizer with
  | (.error exc, normalizer) => (.error exc, { s with normalizer })
  | (.ok event, normalizer) =>
    let appended := appendEvent P policy s.content event
    (appended.1.map (·.eventId), { s with normalizer, content := appended.2 })

/-- `_append_plan_events`. -/
def appendPlanEvents : List (McpEventType × Option JsonObject) → McpRun (List Text)
  | [] => return []
  | (_, none) :: events => appendPlanEvents events
  | (eventType, some payload) :: events => do
    let eventId ← appendEvidence P policy eventType payload
    let eventIds ← appendPlanEvents events
    return eventId :: eventIds

/-- `acknowledgement["acknowledgement"]["status"]`, when it is a string. -/
def acknowledgementStatus (acknowledgement : JsonObject) : Option Str :=
  match Obj.get? acknowledgement.items (lit "acknowledgement") with
  | some (.dict body) =>
    match Obj.get? body (lit "status") with
    | some (.str status) => some status
    | _ => none
  | _ => none

def executeMcpToolCall (call : McpToolCall) (downstream : McpDownstreamCallable) :
    McpRun McpProxyExecutionResult := do
  .ofResult (validateJsonValue .default 0 call.arguments.value.val)
  let plan ← .ofResult (planMcpToolExecution P call)
  let eventIds ← appendPlanEvents P policy plan.events
  if plan.shouldDispatch then
    let acknowledgement ← callDownstream P call downstream
    let eventId ← appendEvidence P policy .acknowledged acknowledgement
    return { dispatched := true, downstreamCalled := true, eventIds := eventIds ++ [eventId]
             acknowledgementEventId := some eventId
             acknowledgementStatus := acknowledgementStatus acknowledgement }
  else return { dispatched := false, downstreamCalled := false, eventIds }

/-- Calls one after the other, whatever each of them raises. -/
def runMcp : McpRuntime → List (McpToolCall × McpDownstreamCallable) → McpRuntime
  | s, [] => s
  | s, (call, downstream) :: calls => runMcp (executeMcpToolCall P policy call downstream s).2 calls

end Execute

end ActionLineage.Mcp
