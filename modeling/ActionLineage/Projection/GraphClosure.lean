import ActionLineage.Projection.InvestigationGraph
import ActionLineage.Projection.TimelineOrder

/-!
# What the investigation graph says

Every update of the scan is known from the events alone (`mem_incidentUpdates`), and both dicts hold
what a run of writes leaves. Event nodes are assigned and everything else is only offered, so the
graph is closed whatever the order of the timeline (`investigation_graph_closed`).

An edge is kept under the concatenation of its relationship and its two nodes. The graph has an edge
for every derived triple exactly when no two of them have one concatenation
(`investigation_graph_faithful_iff`); ids and names with colons can have one.
-/

namespace ActionLineage

open Py InvestigationGraph

variable {P : Platform}

/-- Source node, target node and relationship. -/
structure Triple where
  source : Str
  target : Str
  relationship : Str
deriving DecidableEq

def Triple.edgeId (t : Triple) : Str := InvestigationGraph.edgeId t.source t.target t.relationship

/-- The edge of a triple, with the attributes it is met with first. -/
def Triple.edge (t : Triple) (attributes : Obj) : InvestigationGraphEdge where
  edgeId := t.edgeId
  source := t.source
  target := t.target
  relationship := t.relationship
  attributes := attributes

def InvestigationGraphEdge.triple (e : InvestigationGraphEdge) : Triple :=
  ⟨e.source, e.target, e.relationship⟩

namespace InvestigationGraph

/-! ## What an incident is about -/

/-- An entity that an event names: its kind and value, the attribute it has in its node, and how
the event relates to it. -/
inductive Entity (P : Platform) (event : EventObject) : Str → Str → Str → Str → Prop
  | principal {value : Str} (h : principalId event.object = some value) :
    Entity P event (lit "principal") value (lit "principal_id") (lit "performed_by")
  | tool {names : List Str} {value : Str} (h : toolNames P event.object = .ok names)
    (hmem : value ∈ names) : Entity P event (lit "tool") value (lit "name") (lit "uses_tool")
  | resource {identifiers : List Str} {value : Str}
    (h : resourceIdentifiers P event.object = .ok identifiers) (hmem : value ∈ identifiers) :
    Entity P event (lit "resource") value (lit "identifier") (lit "references_resource")
  | status {value : Str} (h : verificationStatus event.object = some value) :
    Entity P event (lit "verification_status") value (lit "status") (lit "has_verification_status")

/-- The triples of an incident. -/
inductive Derived (P : Platform) (events : List EventObject) : Triple → Prop
  | causalParent {event : EventObject} {parent : Str} (hevent : event ∈ events)
    (h : parentEventId event.object = some parent) :
    Derived P events ⟨eventNodeId parent, eventNodeId event.eventId, lit "causal_parent"⟩
  | entity {event : EventObject} {kind value key relationship : Str} (hevent : event ∈ events)
    (h : Entity P event kind value key relationship) :
    Derived P events ⟨eventNodeId event.eventId, entityNodeId kind value, relationship⟩
  | evidenceLink {link : Obj} {subject evidence : Str}
    (hlink : link ∈ evidenceLinksFromEventObjects events)
    (h : linkSides link = some (subject, evidence)) :
    Derived P events ⟨eventNodeId evidence, eventNodeId subject, linkRelationship link⟩

/-- The events that an incident refers to: causal parents, and both sides of its evidence links. -/
inductive Referenced (events : List EventObject) : Str → Prop
  | parent {event : EventObject} {parent : Str} (hevent : event ∈ events)
    (h : parentEventId event.object = some parent) : Referenced events parent
  | subject {link : Obj} {subject evidence : Str}
    (hlink : link ∈ evidenceLinksFromEventObjects events)
    (h : linkSides link = some (subject, evidence)) : Referenced events subject
  | evidence {link : Obj} {subject evidence : Str}
    (hlink : link ∈ evidenceLinksFromEventObjects events)
    (h : linkSides link = some (subject, evidence)) : Referenced events evidence

/-! ## Node ids -/

theorem eventNodeId_injective {a b : Str} (h : eventNodeId a = eventNodeId b) : a = b :=
  List.append_cancel_left h

/-- No entity is an event: the kinds begin with another letter. -/
theorem Entity.nodeId_ne {event : EventObject} {kind value key relationship : Str}
    (h : Entity P event kind value key relationship) (id : Str) :
    entityNodeId kind value ≠ eventNodeId id := by
  have hfirst : ∃ c rest, kind = c :: rest ∧ c ≠ cp 'e' := by
    cases h with
    | principal _ => exact ⟨cp 'p', lit "rincipal", rfl, by decide⟩
    | tool _ _ => exact ⟨cp 't', lit "ool", rfl, by decide⟩
    | resource _ _ => exact ⟨cp 'r', lit "esource", rfl, by decide⟩
    | status _ => exact ⟨cp 'v', lit "erification_status", rfl, by decide⟩
  obtain ⟨c, rest, rfl, hc⟩ := hfirst
  intro heq
  have hcons : c :: (rest ++ lit ":" ++ value) = cp 'e' :: (lit "vent:" ++ id) := heq
  exact hc (List.cons.inj hcons).1

/-! ## The updates -/

theorem mem_eventUpdates {ids : List Str} {event : EventObject} {us : List Update}
    (h : eventUpdates P ids event = .ok us) {u : Update} :
    u ∈ us ↔ u = setNode (eventNode event) ∨ u ∈ parentUpdates ids event ∨
      ∃ kind value key relationship, Entity P event kind value key relationship ∧
        u ∈ addEntity event kind value key relationship := by
  obtain ⟨tools, htools, h⟩ := bind_eq_ok.mp h
  obtain ⟨resources, hresources, h⟩ := bind_eq_ok.mp h
  obtain rfl := Except.ok.inj h
  simp only [List.cons_append, List.mem_cons, List.mem_append, List.mem_flatMap, Option.mem_toList,
    or_assoc]
  refine or_congr_right (or_congr_right ?_)
  constructor
  · rintro (⟨principal, hp, hu⟩ | ⟨tool, ht, hu⟩ | ⟨resource, hr, hu⟩ | ⟨status, hs, hu⟩)
    · exact ⟨_, _, _, _, .principal hp, hu⟩
    · exact ⟨_, _, _, _, .tool htools ht, hu⟩
    · exact ⟨_, _, _, _, .resource hresources hr, hu⟩
    · exact ⟨_, _, _, _, .status hs, hu⟩
  · rintro ⟨kind, value, key, relationship, hentity, hu⟩
    cases hentity with
    | principal hp => exact .inl ⟨value, hp, hu⟩
    | tool hnames hmem =>
      rw [htools] at hnames
      obtain rfl := Except.ok.inj hnames
      exact .inr (.inl ⟨value, hmem, hu⟩)
    | resource hids hmem =>
      rw [hresources] at hids
      obtain rfl := Except.ok.inj hids
      exact .inr (.inr (.inl ⟨value, hmem, hu⟩))
    | status hs => exact .inr (.inr (.inr ⟨value, hs, hu⟩))

/-- The updates of an incident, whatever the order of its events. -/
theorem mem_incidentUpdates {events : List EventObject} {updates : List Update}
    (h : incidentUpdates P events = .ok updates) {u : Update} :
    u ∈ updates ↔
      (∃ event ∈ events, u = setNode (eventNode event)) ∨
      (∃ event ∈ events, u ∈ parentUpdates (events.map (·.eventId)) event) ∨
      (∃ event ∈ events, ∃ kind value key relationship,
        Entity P event kind value key relationship ∧
          u ∈ addEntity event kind value key relationship) ∨
      ∃ link ∈ evidenceLinksFromEventObjects events,
        u ∈ linkUpdates (events.map (·.eventId)) link := by
  obtain ⟨found, hfound, h⟩ := bind_eq_ok.mp h
  obtain rfl := Except.ok.inj h
  have hrel := mapM_eq_ok.mp hfound
  rw [List.mem_append, List.mem_flatten, List.mem_flatMap, ← or_assoc, ← or_assoc]
  refine or_congr_left ?_
  constructor
  · rintro ⟨us, hus, hu⟩
    obtain ⟨event, hevent, hupdates⟩ := exists_of_forall₂ hrel hus
    rcases (mem_eventUpdates hupdates).mp hu with hset | hparent | hentity
    · exact .inl (.inl ⟨event, hevent, hset⟩)
    · exact .inl (.inr ⟨event, hevent, hparent⟩)
    · exact .inr ⟨event, hevent, hentity⟩
  · have hupdates : ∀ event ∈ events, (u = setNode (eventNode event) ∨
        u ∈ parentUpdates (events.map (·.eventId)) event ∨
        ∃ kind value key relationship, Entity P event kind value key relationship ∧
          u ∈ addEntity event kind value key relationship) → ∃ us ∈ found, u ∈ us := by
      intro event hevent hu
      obtain ⟨us, hus, hupdates⟩ := forall₂_mem_left hrel hevent
      exact ⟨us, hus, (mem_eventUpdates hupdates).mpr hu⟩
    rintro ((⟨event, hevent, hset⟩ | ⟨event, hevent, hparent⟩) | ⟨event, hevent, hentity⟩)
    · exact hupdates event hevent (.inl hset)
    · exact hupdates event hevent (.inr (.inl hparent))
    · exact hupdates event hevent (.inr (.inr hentity))

/-! ## The two dicts -/

def nodeWrites (updates : List Update) : List (Dict.Write Str InvestigationGraphNode) :=
  updates.filterMap fun u => match u with
    | .node w => some w
    | .edge _ => none

def edgeWrites (updates : List Update) : List (Dict.Write Str InvestigationGraphEdge) :=
  updates.filterMap fun u => match u with
    | .node _ => none
    | .edge w => some w

theorem mem_nodeWrites {updates : List Update} {w : Dict.Write Str InvestigationGraphNode} :
    w ∈ nodeWrites updates ↔ .node w ∈ updates := by
  rw [nodeWrites, List.mem_filterMap]
  constructor
  · rintro ⟨u, hu, hw⟩
    cases u with
    | node w' => exact Option.some.inj hw ▸ hu
    | edge w' => cases hw
  · intro h
    exact ⟨_, h, rfl⟩

theorem mem_edgeWrites {updates : List Update} {w : Dict.Write Str InvestigationGraphEdge} :
    w ∈ edgeWrites updates ↔ .edge w ∈ updates := by
  rw [edgeWrites, List.mem_filterMap]
  constructor
  · rintro ⟨u, hu, hw⟩
    cases u with
    | node w' => cases hw
    | edge w' => exact Option.some.inj hw ▸ hu
  · intro h
    exact ⟨_, h, rfl⟩

/-- The two dicts are filled apart from each other. -/
theorem foldl_update (updates : List Update) (g : Dicts) :
    updates.foldl Dicts.update g =
      ⟨g.nodes.writeAll (nodeWrites updates), g.edges.writeAll (edgeWrites updates)⟩ := by
  induction updates generalizing g with
  | nil => rfl
  | cons u updates ih =>
    rw [List.foldl_cons, ih]
    cases u <;> rfl

/-! ## Edges -/

theorem addEdge_eq (t : Triple) (attributes : Obj) :
    addEdge t.source t.target t.relationship attributes =
      .edge (.setdefault t.edgeId (t.edge attributes)) := rfl

/-- Edges are offered under the id of a derived triple. -/
theorem edge_of_mem {events : List EventObject} {updates : List Update}
    (h : incidentUpdates P events = .ok updates)
    {w : Dict.Write Str InvestigationGraphEdge} (hw : .edge w ∈ updates) :
    ∃ t attributes, Derived P events t ∧ w = .setdefault t.edgeId (t.edge attributes) := by
  rcases (mem_incidentUpdates h).mp hw with ⟨event, -, hu⟩ | ⟨event, hevent, hu⟩ |
    ⟨event, hevent, kind, value, key, relationship, hentity, hu⟩ | ⟨link, hlink, hu⟩
  · cases hu
  · unfold parentUpdates at hu
    split at hu
    · cases hu
    · rename_i parent hparent
      have hedge := (List.mem_cons.mp hu).resolve_left (by intro heq; cases heq)
      exact ⟨_, _, .causalParent hevent hparent, Update.edge.inj (List.mem_singleton.mp hedge)⟩
  · have hedge := (List.mem_cons.mp hu).resolve_left (by intro heq; cases heq)
    exact ⟨_, _, .entity hevent hentity, Update.edge.inj (List.mem_singleton.mp hedge)⟩
  · unfold linkUpdates at hu
    split at hu
    · cases hu
    · rename_i subject evidence hsides
      have htail := (List.mem_cons.mp hu).resolve_left (by intro heq; cases heq)
      have hedge := (List.mem_cons.mp htail).resolve_left (by intro heq; cases heq)
      exact ⟨_, _, .evidenceLink hlink hsides, Update.edge.inj (List.mem_singleton.mp hedge)⟩

/-- An edge is offered for every derived triple. -/
theorem addEdge_mem {events : List EventObject} {updates : List Update}
    (h : incidentUpdates P events = .ok updates) {t : Triple} (ht : Derived P events t) :
    ∃ attributes, addEdge t.source t.target t.relationship attributes ∈ updates := by
  simp only [mem_incidentUpdates h]
  cases ht with
  | @causalParent event parent hevent hparent =>
    refine ⟨[], .inr (.inl ⟨event, hevent, ?_⟩)⟩
    rw [parentUpdates, hparent]
    exact List.mem_cons_of_mem _ (List.mem_singleton.mpr rfl)
  | @entity event kind value key relationship hevent hentity =>
    exact ⟨[], .inr (.inr (.inl ⟨event, hevent, kind, value, key, relationship, hentity,
      List.mem_cons_of_mem _ (List.mem_singleton.mpr rfl)⟩))⟩
  | @evidenceLink link subject evidence hlink hsides =>
    refine ⟨evidenceEdgeAttributes link, .inr (.inr (.inr ⟨link, hlink, ?_⟩))⟩
    rw [linkUpdates, hsides]
    exact List.mem_cons_of_mem _ (List.mem_cons_of_mem _ (List.mem_singleton.mpr rfl))

end InvestigationGraph

theorem investigationGraphFromIncident_eq_ok {incident : IncidentExport}
    {graph : InvestigationGraphExport}
    (h : investigationGraphFromIncident P incident = .ok graph) :
    ∃ updates, incidentUpdates P incident.events = .ok updates ∧
      graph.nodes = (Dict.empty.writeAll (nodeWrites updates)).sortedValues ∧
      graph.edges = (Dict.empty.writeAll (edgeWrites updates)).sortedValues := by
  obtain ⟨updates, hupdates, h⟩ := bind_eq_ok.mp h
  obtain rfl := Except.ok.inj h
  exact ⟨updates, hupdates, by rw [foldl_update], by rw [foldl_update]⟩

theorem mem_graph_edges {incident : IncidentExport} {graph : InvestigationGraphExport}
    {updates : List Update} (hupdates : incidentUpdates P incident.events = .ok updates)
    (hedges : graph.edges = (Dict.empty.writeAll (edgeWrites updates)).sortedValues)
    {e : InvestigationGraphEdge} (he : e ∈ graph.edges) :
    Derived P incident.events e.triple ∧
      (Dict.empty.writeAll (edgeWrites updates)).get? e.triple.edgeId = some e := by
  rw [hedges] at he
  obtain ⟨id, hid⟩ := Dict.mem_sortedValues.mp he
  rcases Dict.get?_writeAll hid with hempty | ⟨w, hw, hkey, hvalue⟩
  · cases hempty
  · obtain ⟨t, attributes, ht, rfl⟩ := edge_of_mem hupdates (mem_edgeWrites.mp hw)
    obtain rfl : t.edge attributes = e := hvalue
    have hkey : t.edgeId = id := hkey
    exact ⟨ht, hkey.symm ▸ hid⟩

/-- Every derived triple has an edge of its own, and every edge is a derived triple. -/
def FaithfulEdges (P : Platform) (incident : IncidentExport) (graph : InvestigationGraphExport) :
    Prop :=
  (∀ t, Derived P incident.events t → ∃ e ∈ graph.edges, e.triple = t) ∧
    ∀ e ∈ graph.edges, Derived P incident.events e.triple

/-- **Faithfulness.** The edges of the graph are the derived triples exactly when no two of these
have the same concatenation for an id. -/
theorem investigation_graph_faithful_iff (P : Platform) (incident : IncidentExport)
    (graph : InvestigationGraphExport)
    (h : investigationGraphFromIncident P incident = .ok graph) :
    FaithfulEdges P incident graph ↔
      Set.InjOn Triple.edgeId {t | Derived P incident.events t} := by
  obtain ⟨updates, hupdates, -, hedges⟩ := investigationGraphFromIncident_eq_ok h
  constructor
  · rintro ⟨hall, -⟩ t ht t' ht' hid
    obtain ⟨e, he, rfl⟩ := hall t ht
    obtain ⟨e', he', rfl⟩ := hall t' ht'
    have hget := (mem_graph_edges hupdates hedges he).2
    have hget' := (mem_graph_edges hupdates hedges he').2
    rw [hid, hget'] at hget
    rw [Option.some.inj hget]
  · intro hinj
    refine ⟨fun t ht => ?_, fun e he => (mem_graph_edges hupdates hedges he).1⟩
    obtain ⟨attributes, hmem⟩ := addEdge_mem hupdates ht
    rw [addEdge_eq] at hmem
    obtain ⟨e, he⟩ := Option.isSome_iff_exists.mp
      (Dict.isSome_get?_writeAll (d := Dict.empty) (.inr ⟨_, mem_edgeWrites.mpr hmem, rfl⟩))
    have hkept : e ∈ graph.edges := hedges ▸ Dict.mem_sortedValues.mpr ⟨_, he⟩
    obtain ⟨hderived, hown⟩ := mem_graph_edges hupdates hedges hkept
    -- the edge under the triple's id is that of a derived triple with the same id
    rcases Dict.get?_writeAll he with hempty | ⟨w, hw, hkey, hvalue⟩
    · cases hempty
    · obtain ⟨t', attributes', ht', rfl⟩ := edge_of_mem hupdates (mem_edgeWrites.mp hw)
      obtain rfl : t'.edge attributes' = e := hvalue
      exact ⟨_, hkept, hinj ht' ht hkey⟩

/-- An event object with a parent and a principal. -/
def sampleEventObject (id : Str) (parent principal : Value) : EventObject where
  object :=
    [(lit "event_id", .str id), (lit "event_type", .str (lit "agent.run.started")),
     (lit "occurred_at", .str sampleTime.isoZ),
     (lit "causality", .dict [(lit "sequence", .int 0), (lit "parent_event_id", parent)]),
     (lit "principal", .dict [(lit "principal_id", principal)])]
  eventId := id
  eventType := lit "agent.run.started"
  occurredAt := sampleTime.isoZ
  causality := [(lit "sequence", .int 0), (lit "parent_event_id", parent)]
  sequence := .int 0
  eventId_eq := rfl
  eventType_eq := rfl
  occurredAt_eq := rfl
  causality_eq := rfl
  sequence_eq := rfl

def principalEvent (id principal : String) : EventObject :=
  sampleEventObject (lit id) .null (.str (lit principal))

theorem investigation_graph_faithful_iff_sample :
    let incident : IncidentExport := ⟨lit "run_id", lit "r", [principalEvent "a" "p"]⟩
    ∃ graph, investigationGraphFromIncident .plain incident = .ok graph ∧
      (FaithfulEdges .plain incident graph ↔
        Set.InjOn Triple.edgeId {t | Derived .plain incident.events t}) := by
  intro incident
  obtain ⟨graph, hgraph, -⟩ := map_eq_ok.mp (show (investigationGraphFromIncident .plain
    incident).map (fun _ => ()) = .ok () by decide +kernel)
  exact ⟨graph, hgraph, investigation_graph_faithful_iff .plain incident graph hgraph⟩

/-- Two events and their principals whose texts run together: only one of the two edges is kept. -/
theorem colliding_edge_is_dropped :
    let first := principalEvent "a" "b:principal:c"
    let second := principalEvent "a:principal:b" "c"
    let incident : IncidentExport := ⟨lit "run_id", lit "r", [first, second]⟩
    ∃ graph, investigationGraphFromIncident .plain incident = .ok graph ∧
      ¬ FaithfulEdges .plain incident graph := by
  intro first second incident
  obtain ⟨graph, hgraph, htriples⟩ := map_eq_ok.mp (show (investigationGraphFromIncident .plain
    incident).map (fun g => g.edges.map (·.triple)) = .ok [⟨eventNodeId (lit "a"),
      entityNodeId (lit "principal") (lit "b:principal:c"), lit "performed_by"⟩] by decide +kernel)
  refine ⟨graph, hgraph, ?_⟩
  rintro ⟨hall, -⟩
  have hsecond : Entity .plain second (lit "principal") (lit "c") (lit "principal_id")
      (lit "performed_by") := .principal (by decide +kernel)
  obtain ⟨e, he, htriple⟩ := hall _ (.entity (List.mem_cons_of_mem _ List.mem_cons_self) hsecond)
  have hmem : e.triple ∈ graph.edges.map (·.triple) := List.mem_map_of_mem he
  rw [htriples, htriple, List.mem_singleton] at hmem
  exact absurd hmem (by decide +kernel)

/-! ## Nodes -/

section Nodes

variable {incident : IncidentExport} {graph : InvestigationGraphExport} {updates : List Update}

/-- Where the writes of a node come from, and that they are kept under the node's id. -/
theorem node_of_mem (hupdates : incidentUpdates P incident.events = .ok updates)
    {w : Dict.Write Str InvestigationGraphNode} (hw : .node w ∈ updates) :
    w.key = w.value.nodeId ∧
      ((∃ event ∈ incident.events, w = .set (eventNode event).nodeId (eventNode event)) ∨
        (∃ id, .node w = ensureEventReferenceNode (incident.events.map (·.eventId)) id) ∨
        ∃ event ∈ incident.events, ∃ kind value key relationship,
          Entity P event kind value key relationship ∧ w.key = entityNodeId kind value) := by
  rcases (mem_incidentUpdates hupdates).mp hw with ⟨event, hevent, hu⟩ | ⟨event, hevent, hu⟩ |
    ⟨event, hevent, kind, value, key, relationship, hentity, hu⟩ | ⟨link, hlink, hu⟩
  · obtain rfl := Update.node.inj hu
    exact ⟨rfl, .inl ⟨event, hevent, rfl⟩⟩
  · unfold parentUpdates at hu
    split at hu
    · cases hu
    · rename_i parent hparent
      rcases List.mem_cons.mp hu with hu | hu
      · obtain rfl := Update.node.inj hu
        exact ⟨rfl, .inr (.inl ⟨parent, rfl⟩)⟩
      · cases List.mem_singleton.mp hu
  · rcases List.mem_cons.mp hu with hu | hu
    · obtain rfl := Update.node.inj hu
      exact ⟨rfl, .inr (.inr ⟨event, hevent, kind, value, key, relationship, hentity, rfl⟩)⟩
    · cases List.mem_singleton.mp hu
  · unfold linkUpdates at hu
    split at hu
    · cases hu
    · rename_i subject evidence hsides
      rcases List.mem_cons.mp hu with hu | hu
      · obtain rfl := Update.node.inj hu
        exact ⟨rfl, .inr (.inl ⟨subject, rfl⟩)⟩
      · rcases List.mem_cons.mp hu with hu | hu
        · obtain rfl := Update.node.inj hu
          exact ⟨rfl, .inr (.inl ⟨evidence, rfl⟩)⟩
        · cases List.mem_singleton.mp hu

/-- A node stands under its own id. -/
theorem nodeId_of_get? (hupdates : incidentUpdates P incident.events = .ok updates) {id : Str}
    {n : InvestigationGraphNode}
    (h : (Dict.empty.writeAll (nodeWrites updates)).get? id = some n) : n.nodeId = id := by
  rcases Dict.get?_writeAll h with hempty | ⟨w, hw, hkey, hvalue⟩
  · cases hempty
  · rw [← hvalue, ← hkey, (node_of_mem hupdates (mem_nodeWrites.mp hw)).1]

/-- What is written has a node. -/
theorem node_exists (hupdates : incidentUpdates P incident.events = .ok updates)
    (hnodes : graph.nodes = (Dict.empty.writeAll (nodeWrites updates)).sortedValues)
    {w : Dict.Write Str InvestigationGraphNode} (hw : .node w ∈ updates) :
    ∃ n ∈ graph.nodes, n.nodeId = w.key := by
  obtain ⟨n, hn⟩ := Option.isSome_iff_exists.mp
    (Dict.isSome_get?_writeAll (d := Dict.empty) (.inr ⟨w, mem_nodeWrites.mpr hw, rfl⟩))
  exact ⟨n, hnodes ▸ Dict.mem_sortedValues.mpr ⟨_, hn⟩, nodeId_of_get? hupdates hn⟩

theorem setNode_mem (hupdates : incidentUpdates P incident.events = .ok updates)
    {event : EventObject} (hevent : event ∈ incident.events) :
    setNode (eventNode event) ∈ updates :=
  (mem_incidentUpdates hupdates).mpr (.inl ⟨event, hevent, rfl⟩)

/-- A reference node is offered for every event that is referred to. -/
theorem reference_mem (hupdates : incidentUpdates P incident.events = .ok updates) {id : Str}
    (h : Referenced incident.events id) :
    ensureEventReferenceNode (incident.events.map (·.eventId)) id ∈ updates := by
  rw [mem_incidentUpdates hupdates]
  cases h with
  | @parent event _ hevent hparent =>
    refine .inr (.inl ⟨event, hevent, ?_⟩)
    rw [parentUpdates, hparent]
    exact List.mem_cons_self
  | @subject link _ evidence hlink hsides =>
    refine .inr (.inr (.inr ⟨link, hlink, ?_⟩))
    rw [linkUpdates, hsides]
    exact List.mem_cons_self
  | @evidence link subject _ hlink hsides =>
    refine .inr (.inr (.inr ⟨link, hlink, ?_⟩))
    rw [linkUpdates, hsides]
    exact List.mem_cons_of_mem _ List.mem_cons_self

/-- Both ends of a derived triple are written. -/
theorem ends_written (hupdates : incidentUpdates P incident.events = .ok updates) {t : Triple}
    (ht : Derived P incident.events t) :
    (∃ w, .node w ∈ updates ∧ w.key = t.source) ∧ ∃ w, .node w ∈ updates ∧ w.key = t.target := by
  cases ht with
  | causalParent hevent hparent =>
    exact ⟨⟨_, reference_mem hupdates (.parent hevent hparent), rfl⟩,
      ⟨_, setNode_mem hupdates hevent, rfl⟩⟩
  | @entity event kind value key relationship hevent hentity =>
    refine ⟨⟨_, setNode_mem hupdates hevent, rfl⟩, ⟨_, (mem_incidentUpdates hupdates).mpr
      (.inr (.inr (.inl ⟨event, hevent, kind, value, key, relationship, hentity,
        List.mem_cons_self⟩))), rfl⟩⟩
  | evidenceLink hlink hsides =>
    exact ⟨⟨_, reference_mem hupdates (.evidence hlink hsides), rfl⟩,
      ⟨_, reference_mem hupdates (.subject hlink hsides), rfl⟩⟩

/-- The node of a timeline event is assigned once, whatever is offered before and after. -/
theorem eventNode_kept (hupdates : incidentUpdates P incident.events = .ok updates)
    (hids : (incident.events.map (·.eventId)).Nodup) {event : EventObject}
    (hevent : event ∈ incident.events) :
    (Dict.empty.writeAll (nodeWrites updates)).get? (eventNodeId event.eventId)
      = some (eventNode event) := by
  apply Dict.get?_of_set (mem_nodeWrites.mpr (setNode_mem hupdates hevent))
  intro n hn
  rcases (node_of_mem hupdates (mem_nodeWrites.mp hn)).2 with ⟨event', hevent', hset⟩ | ⟨id, hu⟩ |
    ⟨event', -, kind, value, key, relationship, hentity, hkey⟩
  · obtain ⟨hkey, rfl⟩ := Dict.Write.set.inj hset
    have hid : event.eventId = event'.eventId := eventNodeId_injective hkey
    rw [List.inj_on_of_nodup_map hids hevent hevent' hid]
  · cases hu
  · exact absurd hkey.symm (hentity.nodeId_ne event.eventId)

/-- An event outside the timeline keeps the reference node it is first offered. -/
theorem referenceNode_kept (hupdates : incidentUpdates P incident.events = .ok updates) {id : Str}
    (h : Referenced incident.events id) (hout : id ∉ incident.events.map (·.eventId)) :
    ∃ n, (Dict.empty.writeAll (nodeWrites updates)).get? (eventNodeId id) = some n ∧
      n.kind = lit "event_reference" := by
  obtain ⟨n, hn⟩ := Option.isSome_iff_exists.mp (Dict.isSome_get?_writeAll (d := Dict.empty)
    (.inr ⟨_, mem_nodeWrites.mpr (reference_mem hupdates h), rfl⟩))
  refine ⟨n, hn, ?_⟩
  rcases Dict.get?_writeAll hn with hempty | ⟨w, hw, hkey, rfl⟩
  · cases hempty
  rcases (node_of_mem hupdates (mem_nodeWrites.mp hw)).2 with ⟨event, hevent, rfl⟩ | ⟨id', hu⟩ |
    ⟨event, -, kind, value, key, relationship, hentity, hentityKey⟩
  · have hid : event.eventId = id := eventNodeId_injective hkey
    exact absurd (List.mem_map.mpr ⟨event, hevent, hid⟩) hout
  · obtain rfl := Update.node.inj hu
    have hid : id' = id := eventNodeId_injective hkey
    have hcontains : (incident.events.map (·.eventId)).contains id' = false := by
      rw [hid, List.contains_eq_mem, decide_eq_false hout]
    show (if (incident.events.map (·.eventId)).contains id' = true then lit "event"
      else lit "event_reference") = lit "event_reference"
    rw [hcontains]
    rfl
  · exact absurd (hentityKey.symm.trans hkey) (hentity.nodeId_ne id)

end Nodes

/-- The graph is closed: edges end in nodes, and events are shown in full where the timeline has
them. -/
structure ClosedGraph (incident : IncidentExport) (graph : InvestigationGraphExport) : Prop where
  nodeIds_nodup : (graph.nodes.map (·.nodeId)).Nodup
  edge_ends : ∀ e ∈ graph.edges, (∃ n ∈ graph.nodes, n.nodeId = e.source) ∧
    ∃ n ∈ graph.nodes, n.nodeId = e.target
  timeline_nodes : ∀ event ∈ incident.events, ∃ n ∈ graph.nodes,
    n.nodeId = eventNodeId event.eventId ∧ n.kind = lit "event" ∧
      n.attributes.get? (lit "event_type") = some (.str event.eventType) ∧
      n.attributes.get? (lit "sequence") = some event.sequence
  reference_nodes : ∀ id, Referenced incident.events id →
    id ∉ incident.events.map (·.eventId) →
      ∃ n ∈ graph.nodes, n.nodeId = eventNodeId id ∧ n.kind = lit "event_reference"

/-- **Closure.** The graph of an incident with distinct event ids is closed. -/
theorem investigation_graph_closed (P : Platform) (incident : IncidentExport)
    (hids : (incident.events.map (·.eventId)).Nodup) (graph : InvestigationGraphExport)
    (h : investigationGraphFromIncident P incident = .ok graph) : ClosedGraph incident graph := by
  obtain ⟨updates, hupdates, hnodes, hedges⟩ := investigationGraphFromIncident_eq_ok h
  have hkept {id : Str} {n : InvestigationGraphNode}
      (hn : (Dict.empty.writeAll (nodeWrites updates)).get? id = some n) : n ∈ graph.nodes :=
    hnodes ▸ Dict.mem_sortedValues.mpr ⟨id, hn⟩
  refine ⟨?_, fun e he => ?_, fun event hevent => ?_, fun id href hout => ?_⟩
  · rw [hnodes]
    exact Dict.nodup_map_sortedValues fun id n hn => nodeId_of_get? hupdates hn
  · obtain ⟨⟨w, hw, hsource⟩, w', hw', htarget⟩ :=
      ends_written hupdates (mem_graph_edges hupdates hedges he).1
    have hfirst := node_exists hupdates hnodes hw
    have hsecond := node_exists hupdates hnodes hw'
    rw [hsource] at hfirst
    rw [htarget] at hsecond
    exact ⟨hfirst, hsecond⟩
  · exact ⟨_, hkept (eventNode_kept hupdates hids hevent), rfl, rfl, rfl, rfl⟩
  · obtain ⟨n, hn, hkind⟩ := referenceNode_kept hupdates href hout
    exact ⟨n, hkept hn, nodeId_of_get? hupdates hn, hkind⟩

/-- An event that is shown before its parent, which has a parent outside of the timeline. -/
theorem investigation_graph_closed_sample :
    let child := sampleEventObject (lit "a") (.str (lit "b")) .null
    let parent := sampleEventObject (lit "b") (.str (lit "z")) .null
    let incident : IncidentExport := ⟨lit "run_id", lit "r", [child, parent]⟩
    ∃ graph, investigationGraphFromIncident .plain incident = .ok graph ∧
      ClosedGraph incident graph := by
  intro child parent incident
  obtain ⟨graph, hgraph, -⟩ := map_eq_ok.mp (show (investigationGraphFromIncident .plain
    incident).map (fun _ => ()) = .ok () by decide +kernel)
  exact ⟨graph, hgraph, investigation_graph_closed .plain incident (by decide +kernel) graph hgraph⟩

/-! ## Timelines of a journal -/

/-- The events of a timeline over written records have the members that the graph reads. -/
theorem exists_eventObject {p : JournalRecord} {t : TimelineEvent}
    (h : timelineView P p = .ok t) : ∃ x : EventObject, x.object = t.event ∧
      x.eventId = p.1.eventId.val ∧ x.eventType = p.1.eventType.val := by
  obtain ⟨r, hr, ht⟩ := bind_eq_ok.mp h
  obtain ⟨object, hobject, hr⟩ := bind_eq_ok.mp hr
  obtain ⟨b, hb, hr⟩ := bind_eq_ok.mp hr
  obtain ⟨text, htext, hr⟩ := bind_eq_ok.mp hr
  obtain rfl := Except.ok.inj hr
  obtain ⟨o, text', hdict, hwf, htext', hload⟩ := storedDocument hb
  obtain rfl := Except.ok.inj (htext.symm.trans htext')
  obtain ⟨v, hv, ht⟩ := bind_eq_ok.mp ht
  obtain rfl := Except.ok.inj ((mapError_eq_ok.mp hv).symm.trans hload)
  obtain rfl := Except.ok.inj ht
  have hnodup : (Obj.keys (p.1.items o)).Nodup := ((Value.all_dict _).mp hwf).1
  have hget {k : Str} {v : Value} (hk : (p.1.items o).get? k = some v) := field_sortKeys hnodup hk
  have hcausality : (Obj.keys p.1.causality.items).Nodup :=
    (by decide : [lit "root_event_id", lit "sequence", lit "parent_event_id"].Nodup)
  have hcausalityGet := hget (k := lit "causality") (v := .dict p.1.causality.items) rfl
  rw [Value.sortKeys_dict] at hcausalityGet
  exact ⟨⟨_, p.1.eventId.val, p.1.eventType.val, p.1.occurredAt.isoZ, _, .int p.1.causality.sequence,
    hget (v := .str p.1.eventId.val) rfl, hget (v := .str p.1.eventType.val) rfl,
    hget (v := .str p.1.occurredAt.isoZ) rfl, hcausalityGet,
    field_sortKeys (v := .int p.1.causality.sequence) hcausality rfl⟩, rfl, rfl, rfl⟩

end ActionLineage
