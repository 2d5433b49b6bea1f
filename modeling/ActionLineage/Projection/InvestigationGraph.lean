import ActionLineage.Detection.Predicates
import ActionLineage.Projection.Sqlite
import ActionLineage.Py.Dict

/-!
# The investigation graph of an incident

`investigationGraphFromIncident` scans the events of a timeline and then their evidence links, and
adds nodes and edges to two dicts as it meets them. None of its updates looks at the graph built so
far, so the scan is a list of updates, in the order of the source, and the graph is what they leave.

Summary texts are collected in a set and sorted; a capture marker stands for its summary, which
writes the values it holds with `str` and can raise past the digit limit.
-/

namespace ActionLineage

open Py

def INVESTIGATION_GRAPH_VERSION : Str := lit "actionlineage.dev/investigation-graph-v0"

/-- An event object of a timeline, with the members that the source reads without a check. -/
structure EventObject where
  object : Obj
  eventId : Str
  eventType : Str
  occurredAt : Str
  causality : Obj
  sequence : Value
  eventId_eq : object.get? (lit "event_id") = some (.str eventId)
  eventType_eq : object.get? (lit "event_type") = some (.str eventType)
  occurredAt_eq : object.get? (lit "occurred_at") = some (.str occurredAt)
  causality_eq : object.get? (lit "causality") = some (.dict causality)
  sequence_eq : causality.get? (lit "sequence") = some sequence

/-- What the graph uses of an incident export. -/
structure IncidentExport where
  selectorType : Str
  selectorValue : Str
  events : List EventObject

structure InvestigationGraphNode where
  nodeId : Str
  kind : Str
  label : Str
  attributes : Obj

structure InvestigationGraphEdge where
  edgeId : Str
  source : Str
  target : Str
  relationship : Str
  attributes : Obj

structure InvestigationGraphExport where
  selector : Obj
  nodes : List InvestigationGraphNode
  edges : List InvestigationGraphEdge
  graphVersion : Str := INVESTIGATION_GRAPH_VERSION

namespace InvestigationGraph

/-! ## Reading an event -/

/-- A member that is a dict. -/
def dictMember (o : Obj) (key : String) : Option Obj :=
  match Obj.get? o (lit key) with
  | some (.dict kvs) => some kvs
  | _ => none

/-- `_verification_status`. -/
def verificationStatus (event : Obj) : Option Str :=
  match dictMember event "payload" with
  | none => none
  | some payload =>
    match dictMember payload "evidence_link" with
    | some link => stringOrNone (Obj.get? link (lit "verification_status"))
    | none => stringOrNone (Obj.get? payload (lit "verification_status"))

/-- `_parent_event_id`. -/
def parentEventId (event : Obj) : Option Str :=
  (dictMember event "causality").bind fun causality =>
    stringOrNone (Obj.get? causality (lit "parent_event_id"))

/-- `_principal_id`. -/
def principalId (event : Obj) : Option Str :=
  (dictMember event "principal").bind fun principal =>
    stringOrNone (Obj.get? principal (lit "principal_id"))

/-- `_is_capture_marker` of a dict. -/
def isCaptureMarker (kvs : Obj) : Bool :=
  match Obj.get? kvs (lit "marker") with
  | some (.str s) => s == lit "actionlineage.capture.v1"
  | _ => false

section Summary

variable (P : Platform)

/-- `str(metadata.get(key, "unknown"))`. -/
def markerText (metadata : Obj) (key : String) : Except PyError Str :=
  (strValue P.isPrintableBeyondAscii ((Obj.get? metadata (lit key)).getD (.str (lit "unknown")))).elim
    (.error digitLimit) .ok

/-- `_capture_marker_summary`. -/
def captureMarkerSummary (metadata : Obj) : Except PyError Str := do
  let originalLength ← markerText P metadata "original_length"
  let digest ← markerText P metadata "digest"
  let digestScope ← markerText P metadata "digest_scope"
  .ok (lit "[TRUNCATED original_length=" ++ originalLength ++ lit " digest=" ++ digest ++
    lit " digest_scope=" ++ digestScope ++ lit "]")

/-- `_summary_text`. -/
def summaryText : Value → Except PyError (Option Str)
  | .str s => .ok (some s)
  | .dict kvs => if isCaptureMarker kvs then (captureMarkerSummary P kvs).map some else .ok none
  | _ => .ok none

mutual

/-- `_payload_summary_values_for_keys`, before the set is sorted. -/
def summaryValues (keys : List Str) : Value → Except PyError (List Str)
  | .dict kvs => if isCaptureMarker kvs then .ok [] else summaryValuesMembers keys kvs
  | .list xs => summaryValuesItems keys xs
  | _ => .ok []

def summaryValuesMembers (keys : List Str) : Obj → Except PyError (List Str)
  | [] => .ok []
  | (key, child) :: kvs => do
    let own ← (if keys.contains key then summaryText P child else .ok none)
    let below ← summaryValues keys child
    let others ← summaryValuesMembers keys kvs
    .ok (own.toList ++ below ++ others)

def summaryValuesItems (keys : List Str) : List Value → Except PyError (List Str)
  | [] => .ok []
  | child :: xs => do
    let below ← summaryValues keys child
    let others ← summaryValuesItems keys xs
    .ok (below ++ others)

end

/-- `tuple(sorted(set(values)))`. -/
def sortedSet (values : List Str) : List Str := values.dedup.insertionSort (· ≤ ·)

def payloadSummaryValuesForKeys (event : Obj) (keys : List Str) : Except PyError (List Str) :=
  (summaryValues P keys ((Obj.get? event (lit "payload")).getD .null)).map sortedSet

/-- `_tool_names`. -/
def toolNames (event : Obj) : Except PyError (List Str) :=
  payloadSummaryValuesForKeys P event [lit "name", lit "tool", lit "tool_name"]

/-- `_resource_identifiers`. -/
def resourceIdentifiers (event : Obj) : Except PyError (List Str) :=
  payloadSummaryValuesForKeys P event [lit "identifier", lit "path", lit "uri", lit "url"]

end Summary

/-- `_evidence_links_from_event_objects`. -/
def evidenceLinksFromEventObjects (events : List EventObject) : List Obj :=
  events.filterMap fun event =>
    (dictMember event.object "payload").bind fun payload => dictMember payload "evidence_link"

/-- `isinstance(value, str | int | float | bool)`. -/
def isScalar : Value → Bool
  | .str _ | .int _ | .float _ | .bool _ => true
  | _ => false

/-- `_evidence_edge_attributes`. -/
def evidenceEdgeAttributes (link : Obj) : Obj :=
  [lit "corroboration_type", lit "observer_identity", lit "confidence", lit "verification_status",
    lit "limitations"].filterMap fun key =>
    match Obj.get? link key with
    | some (.list xs) =>
      let safeList := xs.filter isScalar
      if safeList.isEmpty then none else some (key, .list safeList)
    | some value => if isScalar value then some (key, value) else none
    | none => none

/-! ## Identifiers -/

/-- `_event_node_id`. -/
def eventNodeId (eventId : Str) : Str := lit "event:" ++ eventId

/-- `_entity_node_id`. -/
def entityNodeId (kind value : Str) : Str := kind ++ lit ":" ++ value

/-- `_edge_id`. -/
def edgeId (source target relationship : Str) : Str :=
  lit "edge:" ++ relationship ++ lit ":" ++ source ++ lit ":" ++ target

/-! ## Updates -/

/-- One update of the two dicts. -/
inductive Update
  | node (write : Dict.Write Str InvestigationGraphNode)
  | edge (write : Dict.Write Str InvestigationGraphEdge)

/-- `nodes[node.node_id] = node`. -/
def setNode (node : InvestigationGraphNode) : Update := .node (.set node.nodeId node)

/-- `nodes.setdefault(node.node_id, node)`. -/
def setdefaultNode (node : InvestigationGraphNode) : Update :=
  .node (.setdefault node.nodeId node)

/-- `_add_edge`. -/
def addEdge (source target relationship : Str) (attributes : Obj) : Update :=
  let id := edgeId source target relationship
  .edge (.setdefault id { edgeId := id, source, target, relationship, attributes })

/-- `_ensure_event_reference_node`. -/
def ensureEventReferenceNode (eventIds : List Str) (eventId : Str) : Update :=
  setdefaultNode
    { nodeId := eventNodeId eventId
      kind := if eventIds.contains eventId then lit "event" else lit "event_reference"
      label := eventId
      attributes := [(lit "event_id", .str eventId),
        (lit "in_selected_timeline", .bool (eventIds.contains eventId))] }

/-- The node of an entity, and the edge of the event to it. -/
def addEntity (event : EventObject) (kind value key relationship : Str) : List Update :=
  [setdefaultNode
    { nodeId := entityNodeId kind value, kind, label := value, attributes := [(key, .str value)] },
   addEdge (eventNodeId event.eventId) (entityNodeId kind value) relationship []]

def eventNode (event : EventObject) : InvestigationGraphNode where
  nodeId := eventNodeId event.eventId
  kind := lit "event"
  label := event.eventType
  attributes :=
    [(lit "event_id", .str event.eventId), (lit "event_type", .str event.eventType),
     (lit "occurred_at", .str event.occurredAt), (lit "sequence", event.sequence)] ++
    (verificationStatus event.object).toList.map fun status =>
      (lit "verification_status", .str status)

def parentUpdates (eventIds : List Str) (event : EventObject) : List Update :=
  match parentEventId event.object with
  | none => []
  | some parent =>
    [ensureEventReferenceNode eventIds parent,
     addEdge (eventNodeId parent) (eventNodeId event.eventId) (lit "causal_parent") []]

/-- The body of the loop over the events. -/
def eventUpdates (P : Platform) (eventIds : List Str) (event : EventObject) :
    Except PyError (List Update) := do
  let tools ← toolNames P event.object
  let resources ← resourceIdentifiers P event.object
  .ok
    (setNode (eventNode event) :: parentUpdates eventIds event ++
      (principalId event.object).toList.flatMap (fun principal =>
        addEntity event (lit "principal") principal (lit "principal_id") (lit "performed_by")) ++
      tools.flatMap (fun tool => addEntity event (lit "tool") tool (lit "name") (lit "uses_tool")) ++
      resources.flatMap (fun resource =>
        addEntity event (lit "resource") resource (lit "identifier") (lit "references_resource")) ++
      (verificationStatus event.object).toList.flatMap fun status =>
        addEntity event (lit "verification_status") status (lit "status")
          (lit "has_verification_status"))

/-- The relationship of an evidence edge. -/
def linkRelationship (link : Obj) : Str :=
  lit "evidence_link:" ++
    (stringOrNone (Obj.get? link (lit "relationship"))).getD (lit "evidence_link")

/-- The two sides of an evidence link; a link that does not name both is passed over. -/
def linkSides (link : Obj) : Option (Str × Str) :=
  match stringOrNone (Obj.get? link (lit "subject_event_id")),
    stringOrNone (Obj.get? link (lit "evidence_event_id")) with
  | some subject, some evidence => some (subject, evidence)
  | _, _ => none

/-- The body of the loop over the evidence links. -/
def linkUpdates (eventIds : List Str) (link : Obj) : List Update :=
  match linkSides link with
  | none => []
  | some (subject, evidence) =>
    [ensureEventReferenceNode eventIds subject, ensureEventReferenceNode eventIds evidence,
     addEdge (eventNodeId evidence) (eventNodeId subject) (linkRelationship link)
      (evidenceEdgeAttributes link)]

/-- The two dicts of the scan. -/
structure Dicts where
  nodes : Dict Str InvestigationGraphNode
  edges : Dict Str InvestigationGraphEdge

def Dicts.update (g : Dicts) : Update → Dicts
  | .node w => { g with nodes := g.nodes.write w }
  | .edge w => { g with edges := g.edges.write w }

/-- The updates of the whole scan. -/
def incidentUpdates (P : Platform) (events : List EventObject) : Except PyError (List Update) := do
  let eventIds := events.map (·.eventId)
  let updates ← events.mapM (eventUpdates P eventIds)
  .ok (updates.flatten ++ (evidenceLinksFromEventObjects events).flatMap (linkUpdates eventIds))

end InvestigationGraph

open InvestigationGraph in
def investigationGraphFromIncident (P : Platform) (incident : IncidentExport) :
    Except PyError InvestigationGraphExport := do
  let updates ← incidentUpdates P incident.events
  let graph := updates.foldl Dicts.update ⟨.empty, .empty⟩
  .ok
    { selector := [(lit "type", .str incident.selectorType), (lit "value", .str incident.selectorValue)]
      nodes := graph.nodes.sortedValues
      edges := graph.edges.sortedValues }

end ActionLineage
