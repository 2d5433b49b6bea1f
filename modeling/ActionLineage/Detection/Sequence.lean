import ActionLineage.Detection.Predicates
import ActionLineage.Py.Grouping

/-!
# The sequence detection engine

`evaluateSequenceRule` groups the events, sorts each group by `(occurred_at, sequence, event_id)`,
matches the stages in order or in any order, and drops repeated and suppressed matches.
`explainSequenceRule` lists, group by group, the candidates of each stage beside the matches.

A `dict` is its items in insertion order. The loops of the source are recursions on what is left
of the events; the outer loop of `_match_ordered` moves on by at least one event, so the number of
events bounds its rounds.
-/

namespace ActionLineage

open Py

/-- One matched sequence. -/
structure DetectionMatch where
  ruleName : Str
  eventIds : List Str
  groupKey : List Str
  ruleId : Option Str
  severity : Str
deriving DecidableEq

/-! ## Grouping and order -/

/-- The sort key of a group. -/
abbrev SortKey := DateTime ×ₗ ℕ ×ₗ Str

def EventEnvelope.sortKey (e : EventEnvelope) : SortKey :=
  toLex (e.occurredAt, toLex (e.causality.sequence, e.eventId.val))

def sortEvents (events : List EventEnvelope) : List EventEnvelope :=
  events.insertionSort fun a b => a.sortKey ≤ b.sortKey

section Engine

variable (P : Platform)

/-- `tuple(str(_path_value(event_object, path) or "") for path in paths)`. -/
def keyOf (eventObject : Obj) (paths : List Str) : Except PyError (List Str) :=
  paths.mapM fun path => do
    let value ← pathValue P eventObject path
    if value.truthy then (strValue P.isPrintableBeyondAscii value).elim (.error digitLimit) .ok
    else .ok []

/-- The key under which an event is grouped. -/
def groupKey (groupBy : List Str) (event : EventEnvelope) : Except PyError (List Str) := do
  keyOf P (← eventToDict P event) groupBy

/-- `_group_events`. -/
def groupEvents (events : List EventEnvelope) (groupBy : List Str) :
    Except PyError (List (List Str × List EventEnvelope)) :=
  events.foldlM (fun grouped event => do .ok (appendAt (← groupKey P groupBy event) event grouped)) []

/-! ## Windows -/

/-- `_seconds_between`. -/
def secondsBetween (start stop : DateTime) : Binary64 :=
  totalSeconds ((stop.toMicros : Int) - start.toMicros)

def occurrences (events : List EventEnvelope) : List DateTime :=
  events.map EventEnvelope.occurredAt

/-- `_within_window`. -/
def withinWindow (events : List EventEnvelope) (withinSeconds : Option Binary64) : Bool :=
  match withinSeconds with
  | none => true
  | some limit =>
    events.length < 2 ||
      (match (occurrences events).min?, (occurrences events).max? with
        | some first, some last => (secondsBetween first last).le limit
        | _, _ => false)

/-! ## Matching -/

/-- The inner loop of `_match_ordered`, with the stage that is due and the later ones: the events
matched and those behind the last of them, or `none` when the events run out. -/
def scanStages : List EventEnvelope → SequenceStage → List SequenceStage →
    Except PyError (Option (List EventEnvelope × List EventEnvelope))
  | [], _, _ => .ok none
  | event :: events, stage, later => do
    if ← eventMatchesStage P event stage then
      match later with
      | [] => .ok (some ([event], events))
      | next :: later =>
        let scanned ← scanStages events next later
        .ok (scanned.map fun r => (event :: r.1, r.2))
    else scanStages events stage later

/-- `_match_ordered`, with the number of rounds the outer loop may still take. -/
def matchOrdered (stage : SequenceStage) (later : List SequenceStage)
    (withinSeconds : Option Binary64) :
    Nat → List EventEnvelope → Except PyError (List (List EventEnvelope))
  | 0, _ => .ok []
  | fuel + 1, events => do
    match ← scanStages P events stage later with
    | none => .ok []
    | some (matched, rest) =>
      let found ← matchOrdered stage later withinSeconds fuel rest
      .ok (if withinWindow matched withinSeconds then matched :: found else found)

/-- The first event that matches a stage, and the events without it. -/
def takeFirst (stage : SequenceStage) :
    List EventEnvelope → Except PyError (Option (EventEnvelope × List EventEnvelope))
  | [] => .ok none
  | event :: events => do
    if ← eventMatchesStage P event stage then .ok (some (event, events))
    else
      let taken ← takeFirst stage events
      .ok (taken.map fun r => (r.1, event :: r.2))

def takeStages :
    List SequenceStage → List EventEnvelope → Except PyError (Option (List EventEnvelope))
  | [], _ => .ok (some [])
  | stage :: stages, remaining => do
    match ← takeFirst P stage remaining with
    | none => .ok none
    | some (event, remaining) =>
      let matched ← takeStages stages remaining
      .ok (matched.map fun events => event :: events)

/-- `_match_unordered`. -/
def matchUnordered (stages : List SequenceStage) (withinSeconds : Option Binary64)
    (events : List EventEnvelope) : Except PyError (List (List EventEnvelope)) := do
  match ← takeStages P stages events with
  | none => .ok []
  | some matched => .ok (if withinWindow matched withinSeconds then [matched] else [])

/-! ## Suppression -/

/-- `_suppression_key`. -/
def suppressionKey (rule : SequenceRule) (key : List Str) (matched : List EventEnvelope) :
    Except PyError (List Str) :=
  match rule.suppressionKey, matched with
  | [], _ => .ok key
  | _, [] => .ok key
  | paths, event :: _ => do keyOf P (← eventToDict P event) paths

/-- Whether a match starts too soon after the last one emitted under its key. -/
def suppressed (rule : SequenceRule) (lastEmittedAt : Option DateTime) (first : DateTime) : Bool :=
  match rule.suppressionSeconds, lastEmittedAt with
  | some limit, some last => (secondsBetween last first).le limit
  | _, _ => false

/-- `_suppress_and_dedupe`, with the event ids seen and the last emission under each key. -/
def suppressAndDedupe (rule : SequenceRule) (key : List Str) :
    List (List EventEnvelope) → List (List Str) → List (List Str × DateTime) →
      Except PyError (List (List EventEnvelope))
  | [], _, _ => .ok []
  | matched :: rest, seen, lastEmitted => do
    let eventIds := matched.map fun e => e.eventId.val
    if rule.deduplicate && seen.contains eventIds then suppressAndDedupe rule key rest seen lastEmitted
    else
      let suppressionKey ← suppressionKey P rule key matched
      match (occurrences matched).min? with
      | none => .error (.valueError "min() iterable argument is empty")
      | some first =>
        if suppressed rule (lastEmitted.lookup suppressionKey) first then
          suppressAndDedupe rule key rest (eventIds :: seen) lastEmitted
        else
          let emitted ←
            suppressAndDedupe rule key rest (eventIds :: seen) ((suppressionKey, first) :: lastEmitted)
          .ok (matched :: emitted)

/-! ## Evaluation -/

/-- The matches of one group. -/
def evaluateGroup (rule : SequenceRule) (stage : SequenceStage) (later : List SequenceStage)
    (group : List Str × List EventEnvelope) : Except PyError (List DetectionMatch) := do
  let events := sortEvents group.2
  let matched ←
    if rule.ordered then matchOrdered P stage later rule.withinSeconds events.length events
    else matchUnordered P (stage :: later) rule.withinSeconds events
  let emitted ← suppressAndDedupe P rule group.1 matched [] []
  .ok (emitted.map fun events =>
    { ruleName := rule.name, eventIds := events.map fun e => e.eventId.val, groupKey := group.1
      ruleId := rule.ruleId, severity := rule.severity })

def evaluateSequenceRule (events : List EventEnvelope) (rule : SequenceRule) :
    Except PyError (List DetectionMatch) :=
  match rule.stages with
  | [] => .ok []
  | stage :: later => do
    let grouped ← groupEvents P events rule.groupBy
    let found ← grouped.mapM (evaluateGroup P rule stage later)
    .ok found.flatten

/-! ## Explanation -/

/-- Candidates of one stage within one group. -/
structure StageExplanation where
  stageIndex : Nat
  eventType : Str
  candidateEventIds : List Str
  stageName : Option Str
deriving DecidableEq

structure GroupExplanation where
  groupKey : List Str
  eventCount : Nat
  stages : List StageExplanation
deriving DecidableEq

structure RuleExplanation where
  ruleName : Str
  ruleId : Option Str
  totalEvents : Nat
  «matches» : List DetectionMatch
  groups : List GroupExplanation
deriving DecidableEq

/-- The ids of the events that match a stage. -/
def candidateEventIds (stage : SequenceStage) : List EventEnvelope → Except PyError (List Str)
  | [] => .ok []
  | event :: events => do
    if ← eventMatchesStage P event stage then
      let ids ← candidateEventIds stage events
      .ok (event.eventId.val :: ids)
    else candidateEventIds stage events

def explainGroup (stages : List SequenceStage) (group : List Str × List EventEnvelope) :
    Except PyError GroupExplanation := do
  let events := sortEvents group.2
  let stages ← stages.zipIdx.mapM fun p => do
    let ids ← candidateEventIds P p.1 events
    .ok
      { stageIndex := p.2, eventType := p.1.eventType, candidateEventIds := ids
        stageName := p.1.name : StageExplanation }
  .ok { groupKey := group.1, eventCount := events.length, stages }

/-- `sorted(_group_events(events, rule.group_by).items())`; no two items share a key. -/
def sortGroups (grouped : List (List Str × List EventEnvelope)) :
    List (List Str × List EventEnvelope) :=
  grouped.insertionSort fun a b => a.1 ≤ b.1

def explainSequenceRule (events : List EventEnvelope) (rule : SequenceRule) :
    Except PyError RuleExplanation := do
  let found ← evaluateSequenceRule P events rule
  let grouped ← groupEvents P events rule.groupBy
  let groups ← (sortGroups grouped).mapM (explainGroup P rule.stages)
  .ok
    { ruleName := rule.name, ruleId := rule.ruleId, totalEvents := events.length
      «matches» := found, groups }

end Engine

end ActionLineage
