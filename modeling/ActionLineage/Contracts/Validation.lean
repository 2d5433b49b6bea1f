import ActionLineage.Detection.Sequence
import ActionLineage.Journal.Local

/-!
# Lineage contracts

`validateContract` checks a tuple of events against a contract and returns the violations in the
order of the requirements. The one about the journal looks at the verification result and at two
summary values of the tuple: its length and the hash its last event states.

Looking up a path can raise past the digit limit, and so can the dict form of an event, so every
check that reads one is an `Except`.
-/

namespace ActionLineage

open Py

/-! ## Contracts -/

structure ContractEventRequirement where
  eventType : Str
  requiredFields : List Str := []
deriving DecidableEq

structure ContractRelationshipRequirement where
  childEventType : Str
  parentEventType : Str
  referenceField : Option Str := none
deriving DecidableEq

structure ContractEvidenceLinkRequirement where
  eventType : Str := lit "side_effect.verified"
  subjectEventType : Option Str := none
  evidenceEventType : Option Str := none
  relationship : Option Str := none
  verificationStatus : Option Str := none
  corroborationTypes : List Str := []
  observerIdentity : Option Str := none
deriving DecidableEq

structure ContractLatencyRequirement where
  startEventType : Str
  endEventType : Str
  maxSeconds : Binary64
  groupBy : List Str := [lit "correlation.run_id"]
deriving DecidableEq

structure ContractDescriptorRequirement where
  eventType : Str
  descriptorHashField : Str := lit "payload.tool_identity.descriptor_hash"
  toolNameField : Str := lit "payload.tool_identity.name"
  hashPrefix : Str := lit "sha256:"
deriving DecidableEq

structure ContractDetectionRequirement where
  ruleId : Str
  required : Bool := true
  requiredEventTypes : List Str := []
  requiredVerificationStatuses : List Str := []
deriving DecidableEq

structure LineageContract where
  name : Str
  events : List ContractEventRequirement
  relationships : List ContractRelationshipRequirement := []
  evidenceLinks : List ContractEvidenceLinkRequirement := []
  latencyRequirements : List ContractLatencyRequirement := []
  descriptorRequirements : List ContractDescriptorRequirement := []
  detectionRequirements : List ContractDetectionRequirement := []
  allowedVerificationStatuses : Finset Str := ∅
  requiredVerificationStatus : Option Str := none
  hashChainRequired : Bool := true
deriving DecidableEq

/-! ## Violations -/

inductive ViolationCode
  | journalIntegrityUnverified | journalIntegrityViolation | journalIntegritySnapshotMismatch
  | requiredEventMissing | requiredFieldMissing | relationshipMissing
  | evidenceLinkEventMissing | evidenceLinkMissing | evidenceLinkFieldMissing
  | evidenceLinkReferenceMissing | evidenceLinkRequirementMismatch
  | latencyEventMissing | latencyStartMissing | latencyBreach
  | descriptorEventMissing | descriptorIdentityMissing | descriptorHashInvalid
  | requiredDetectionMissing | detectionControlDependencyMissing
  | verificationStatusMissing | verificationStatusNotAllowed
deriving DecidableEq, Repr

namespace ViolationCode

/-- The codes of the journal integrity requirement. -/
def isJournalIntegrity : ViolationCode → Bool
  | journalIntegrityUnverified | journalIntegrityViolation | journalIntegritySnapshotMismatch => true
  | _ => false

end ViolationCode

structure ContractViolation where
  code : ViolationCode
  message : Str
  eventId : Option Str := none
  eventType : Option Str := none
  field : Option Str := none
  severity : Str := lit "error"
  remediation : Option Str := none
deriving DecidableEq

structure ContractResult where
  contractName : Str
  ok : Bool
  violations : List ContractViolation
deriving DecidableEq

/-- The code of a verification issue, as it is written in messages. -/
def VerificationCode.text : VerificationCode → Str
  | emptyRecord => lit "empty_record"
  | truncatedRecord => lit "truncated_record"
  | parseError => lit "parse_error"
  | unsupportedCanonicalization => lit "unsupported_canonicalization"
  | sequenceMismatch => lit "sequence_mismatch"
  | previousHashMismatch => lit "previous_hash_mismatch"
  | eventHashMissing => lit "event_hash_missing"
  | eventHashMismatch => lit "event_hash_mismatch"
  | noncanonicalRecord => lit "noncanonical_record"
  | expectedRecordCountMismatch => lit "expected_record_count_mismatch"
  | expectedLastHashMismatch => lit "expected_last_hash_mismatch"

namespace Contracts

/-- `_string_or_none`. -/
def stringOrNone : Value → Option Str
  | .str (c :: s) => some (c :: s)
  | _ => none

def eventsOfType (events : List EventEnvelope) (eventType : Str) : List EventEnvelope :=
  events.filter fun e => e.eventType.val == eventType

/-- `events_by_id.get(event_id)`: of events with one id, the last. -/
def eventById (events : List EventEnvelope) (eventId : Str) : Option EventEnvelope :=
  events.reverse.find? fun e => e.eventId.val == eventId

/-- `sorted` on texts. -/
def sortTexts (texts : List Str) : List Str := texts.insertionSort (· ≤ ·)

/-! ## Texts of messages -/

def optionalText (s : Option Str) : Str := s.getD (lit "None")

/-- `f"{x:.3f}"`: three decimals, correctly rounded. -/
def fixedThree : Binary64 → Str
  | .nan => lit "nan"
  | .inf neg => if neg then lit "-inf" else lit "inf"
  | .finite neg bits =>
    let thousandths := Binary64.roundDiv (Binary64.units bits.val * 1000) (2 ^ 1074)
    let decimals := natText (1000 + thousandths % 1000)
    (if neg then lit "-" else []) ++ natText (thousandths / 1000) ++ lit "." ++ decimals.drop 1

section Requirements

variable (P : Platform)

/-- The `repr` of a list of texts. -/
def reprTexts (texts : List Str) : Str :=
  lit "[" ++ joinCommaSpace (texts.map (reprStr P.isPrintableBeyondAscii)) ++ lit "]"

/-- The `repr` of a tuple of texts. -/
def reprTuple (texts : List Str) : Str :=
  let members := joinCommaSpace (texts.map (reprStr P.isPrintableBeyondAscii))
  lit "(" ++ members ++ (if texts.length = 1 then lit "," else []) ++ lit ")"

/-- `_get_path(event_to_dict(event), path)`. -/
def fieldValue (event : EventEnvelope) (path : Str) : Except PyError Value := do
  getPath P (.dict (← eventToDict P event)) (splitPath path)

def hasNonemptyField (event : EventEnvelope) (path : Str) : Except PyError Bool := do
  match ← fieldValue P event path with
  | .null => .ok false
  | .str [] => .ok false
  | .list [] => .ok false
  | .dict [] => .ok false
  | _ => .ok true

/-! ## Requirements -/

def validateJournalIntegrityRequirement (events : List EventEnvelope)
    (verification : Option VerificationResult) : List ContractViolation :=
  match verification with
  | none =>
    [{ code := .journalIntegrityUnverified
       message := lit "contract requires a verified journal hash chain"
       field := some (lit "journal.integrity")
       remediation := some (lit "validate a VerifiedJournalSnapshot instead of unverified events") }]
  | some verification =>
    if !verification.ok then
      let issue := verification.issues.head?
      [{ code := .journalIntegrityViolation
         message := lit "contract requires a verified journal hash chain" ++
           (issue.elim [] fun issue => lit "; verifier reported " ++ issue.code.text)
         eventId := issue.bind fun issue => issue.eventId.map Subtype.val
         field := some (lit "journal.integrity")
         remediation := some (lit ("run journal verification and repair or replace the invalid " ++
           "journal")) }]
    else if verification.recordsVerified != events.length then
      [{ code := .journalIntegritySnapshotMismatch
         message := lit "verified record count does not match supplied event tuple"
         field := some (lit "journal.integrity")
         remediation := some (lit ("consume the immutable events from the verified journal " ++
           "snapshot")) }]
    else if verification.lastEventHash != events.getLast?.bind (·.integrity.eventHash) then
      [{ code := .journalIntegritySnapshotMismatch
         message := lit "verified terminal hash does not match supplied event tuple"
         field := some (lit "journal.integrity")
         remediation := some (lit ("consume the immutable events from the verified journal " ++
           "snapshot")) }]
    else []

def validateEventRequirement (events : List EventEnvelope)
    (requirement : ContractEventRequirement) : Except PyError (List ContractViolation) :=
  match eventsOfType events requirement.eventType with
  | [] =>
    .ok [{ code := .requiredEventMissing
           message := lit "required event type is missing: " ++ requirement.eventType
           eventType := some requirement.eventType
           remediation := some (lit ("emit the required lifecycle event before evaluating this " ++
             "contract")) }]
  | candidates => do
    let missing ← requirement.requiredFields.mapM fun field => do
      if ← candidates.anyM fun event => hasNonemptyField P event field then .ok []
      else
        .ok [{ code := .requiredFieldMissing
               message := lit "required field is missing: " ++ field
               eventType := some requirement.eventType
               field := some field
               remediation := some (lit "populate this field at the redaction boundary")
               : ContractViolation }]
    .ok missing.flatten

def relationshipExists (events : List EventEnvelope)
    (relationship : ContractRelationshipRequirement) : Except PyError Bool :=
  (eventsOfType events relationship.childEventType).anyM fun child => do
    let parentId ←
      match relationship.referenceField with
      | none => .ok (child.causality.parentEventId.map Subtype.val)
      | some field => (fieldValue P child field).map stringOrNone
    match parentId.bind (eventById events) with
    | some parent => .ok (parent.eventType.val == relationship.parentEventType)
    | none => .ok false

def validateRelationship (events : List EventEnvelope)
    (relationship : ContractRelationshipRequirement) :
    Except PyError (List ContractViolation) := do
  if ← relationshipExists P events relationship then .ok []
  else
    .ok [{ code := .relationshipMissing
           message := lit "missing relationship " ++ relationship.parentEventType ++ lit " -> " ++
             relationship.childEventType
           eventType := some relationship.childEventType
           field := relationship.referenceField
           remediation := some (lit "record a causal parent or explicit reference field") }]

/-- A member of the evidence link, as a text. -/
def linkText (evidenceLink : Obj) (key : String) : Option Str :=
  stringOrNone ((evidenceLink.get? (lit key)).getD .null)

def validateEvidenceLinkTypes (event : EventEnvelope)
    (requirement : ContractEvidenceLinkRequirement) (evidenceLink : Obj)
    (subject evidence : EventEnvelope) : List ContractViolation :=
  let checks : List (Option Str × Option Str × Str) :=
    [(requirement.subjectEventType, some subject.eventType.val, lit "subjectEventType"),
     (requirement.evidenceEventType, some evidence.eventType.val, lit "evidenceEventType"),
     (requirement.relationship, linkText evidenceLink "relationship", lit "relationship"),
     (requirement.verificationStatus, linkText evidenceLink "verification_status",
      lit "verificationStatus"),
     (requirement.observerIdentity, linkText evidenceLink "observer_identity",
      lit "observerIdentity")]
  let mismatches := checks.filterMap fun (expected, actual, fieldName) =>
    match expected with
    | none => none
    | some expected =>
      if actual = some expected then none
      else
        some
          { code := .evidenceLinkRequirementMismatch
            message := lit "evidence link " ++ fieldName ++ lit " expected " ++ expected ++
              lit ", got " ++ optionalText actual
            eventId := some event.eventId.val
            eventType := some event.eventType.val
            field := some (lit "payload.evidence_link." ++ fieldName)
            remediation := some (lit "emit corroboration metadata that matches the contract")
            : ContractViolation }
  let corroborationType := linkText evidenceLink "corroboration_type"
  let approved := corroborationType.any requirement.corroborationTypes.contains
  mismatches ++
    if requirement.corroborationTypes.isEmpty || approved then []
    else
      [{ code := .evidenceLinkRequirementMismatch
         message := lit "evidence link corroboration type expected one of " ++
           reprTexts P (sortTexts requirement.corroborationTypes) ++ lit ", got " ++
           optionalText corroborationType
         eventId := some event.eventId.val
         eventType := some event.eventType.val
         field := some (lit "payload.evidence_link.corroboration_type")
         remediation := some (lit "use an approved corroboration source for this contract") }]

/-- The body of the loop over the events of an evidence-link requirement. -/
def validateEvidenceLinkEvent (events : List EventEnvelope)
    (requirement : ContractEvidenceLinkRequirement) (event : EventEnvelope) :
    Except PyError (List ContractViolation) := do
  let violation (code : ViolationCode) (message : Str) (remediation : String) :
      ContractViolation :=
    { code, message, eventId := some event.eventId.val, eventType := some event.eventType.val
      field := some (lit "payload.evidence_link"), remediation := some (lit remediation) }
  match ← fieldValue P event (lit "payload.evidence_link") with
  | .dict evidenceLink =>
    match linkText evidenceLink "subject_event_id", linkText evidenceLink "evidence_event_id" with
    | some subjectId, some evidenceId =>
      match eventById events subjectId, eventById events evidenceId with
      | some subject, some evidence =>
        .ok (validateEvidenceLinkTypes P event requirement evidenceLink subject evidence)
      | subject, _ =>
        .ok [violation .evidenceLinkReferenceMissing
          (lit "evidence link references missing event: " ++
            if subject.isNone then subjectId else evidenceId)
          "persist referenced subject and evidence events in the journal"]
    | _, _ =>
      .ok [violation .evidenceLinkFieldMissing
        (lit "evidence link must identify subject_event_id and evidence_event_id")
        "record both sides of the corroboration relationship"]
  | _ =>
    .ok [violation .evidenceLinkMissing (lit "event does not include payload.evidence_link")
      "attach an explicit evidence link to verification events"]

def validateEvidenceLinkRequirement (events : List EventEnvelope)
    (requirement : ContractEvidenceLinkRequirement) :
    Except PyError (List ContractViolation) :=
  match eventsOfType events requirement.eventType with
  | [] =>
    .ok [{ code := .evidenceLinkEventMissing
           message := lit "no event found for evidence-link requirement: " ++ requirement.eventType
           eventType := some requirement.eventType
           remediation := some (lit "emit an event carrying a payload.evidence_link object") }]
  | candidates => do
    let found ← candidates.mapM (validateEvidenceLinkEvent P events requirement)
    .ok found.flatten

/-! ## Latency -/

/-- `_group_key`: the paths of the event object only. -/
def groupKey (event : EventEnvelope) (paths : List Str) : Except PyError (List Str) := do
  let eventObject ← eventToDict P event
  paths.mapM fun path => do
    let value ← getPath P (.dict eventObject) (splitPath path)
    if value.truthy then (strValue P.isPrintableBeyondAscii value).elim (.error digitLimit) .ok
    else .ok []

/-- `_group_by`. -/
def groupEventsBy (events : List EventEnvelope) (paths : List Str) :
    Except PyError (List (List Str × List EventEnvelope)) :=
  events.foldlM (fun grouped event => do
    .ok (appendAt (← groupKey P event paths) event grouped)) []

/-- `abs(a - b)` in microseconds. -/
def distanceMicros (a b : DateTime) : Nat := ((a.toMicros : Int) - b.toMicros).natAbs

/-- `min(starts, key=...)`: the first of the nearest. -/
def nearestStart (endEvent start : EventEnvelope) (starts : List EventEnvelope) : EventEnvelope :=
  starts.foldl (fun best event =>
    if distanceMicros endEvent.occurredAt event.occurredAt <
        distanceMicros endEvent.occurredAt best.occurredAt
    then event else best) start

/-- The body of the loop over the end events of a latency requirement. -/
def validateLatencyEnd (requirement : ContractLatencyRequirement)
    (startsByGroup : List (List Str × List EventEnvelope)) (endEvent : EventEnvelope) :
    Except PyError (List ContractViolation) := do
  let endGroup ← groupKey P endEvent requirement.groupBy
  match (startsByGroup.lookup endGroup).getD [] with
  | [] =>
    .ok [{ code := .latencyStartMissing
           message := lit "no start event for latency group " ++ reprTuple P endGroup
           eventId := some endEvent.eventId.val
           eventType := some endEvent.eventType.val
           remediation := some (lit "preserve correlation fields across lifecycle events") }]
  | start :: starts =>
    let startEvent := nearestStart endEvent start starts
    let observedSeconds :=
      totalSeconds (distanceMicros endEvent.occurredAt startEvent.occurredAt)
    if requirement.maxSeconds.lt observedSeconds then
      .ok [{ code := .latencyBreach
             message := lit "latency " ++ fixedThree observedSeconds ++ lit "s exceeds max " ++
               fixedThree requirement.maxSeconds ++ lit "s"
             eventId := some endEvent.eventId.val
             eventType := some endEvent.eventType.val
             field := some (lit "occurred_at")
             remediation := some (lit ("lower telemetry delay or relax the documented contract " ++
               "threshold")) }]
    else .ok []

def validateLatencyRequirement (events : List EventEnvelope)
    (requirement : ContractLatencyRequirement) : Except PyError (List ContractViolation) :=
  let startEvents := eventsOfType events requirement.startEventType
  let endEvents := eventsOfType events requirement.endEventType
  if startEvents.isEmpty || endEvents.isEmpty then
    .ok [{ code := .latencyEventMissing
           message := lit "latency requirement needs " ++ requirement.startEventType ++
             lit " and " ++ requirement.endEventType
           eventType := some requirement.endEventType
           remediation := some (lit "emit both lifecycle states before validating latency") }]
  else do
    let startsByGroup ← groupEventsBy P startEvents requirement.groupBy
    let found ← endEvents.mapM (validateLatencyEnd P requirement startsByGroup)
    .ok found.flatten

/-! ## Descriptors and detections -/

/-- The body of the loop over the events of a descriptor requirement. -/
def validateDescriptorEvent (requirement : ContractDescriptorRequirement) (event : EventEnvelope) :
    Except PyError (List ContractViolation) := do
  let violation (code : ViolationCode) (message : Str) (remediation : String) :
      ContractViolation :=
    { code, message, eventId := some event.eventId.val, eventType := some event.eventType.val
      field := some requirement.descriptorHashField, remediation := some (lit remediation) }
  let toolName := stringOrNone (← fieldValue P event requirement.toolNameField)
  let descriptorHash := stringOrNone (← fieldValue P event requirement.descriptorHashField)
  match toolName, descriptorHash with
  | some _, some descriptorHash =>
    if requirement.hashPrefix.isPrefixOf descriptorHash then .ok []
    else
      .ok [violation .descriptorHashInvalid
        (lit "descriptor hash must start with " ++ requirement.hashPrefix)
        "hash canonical descriptors with the configured algorithm prefix"]
  | _, _ =>
    .ok [violation .descriptorIdentityMissing (lit "tool name and descriptor hash are required")
      "record a canonical descriptor hash at tool discovery or request time"]

def validateDescriptorRequirement (events : List EventEnvelope)
    (requirement : ContractDescriptorRequirement) : Except PyError (List ContractViolation) :=
  match eventsOfType events requirement.eventType with
  | [] =>
    .ok [{ code := .descriptorEventMissing
           message := lit "no event found for descriptor requirement: " ++ requirement.eventType
           eventType := some requirement.eventType
           remediation := some (lit "emit the event that should carry tool descriptor identity") }]
  | candidates => do
    let found ← candidates.mapM (validateDescriptorEvent P requirement)
    .ok found.flatten

/-- `_verification_statuses`, from the link and the payload of each event object. -/
def verificationStatuses (eventObjects : List Obj) : List Str :=
  eventObjects.flatMap fun eventObject =>
    match eventObject.get? (lit "payload") with
    | some (.dict payload) =>
      let linked :=
        match Obj.get? payload (lit "evidence_link") with
        | some (.dict link) => linkText link "verification_status"
        | _ => none
      linked.toList ++ (linkText payload "verification_status").toList
    | _ => []

/-- `sorted(set(required) - set(present))`. -/
def sortedMissing (required present : List Str) : List Str :=
  sortTexts (required.dedup.filter fun text => !present.contains text)

def validateDetectionRequirement (eventObjects : List Obj)
    (detectionResults : List DetectionMatch) (requirement : ContractDetectionRequirement) :
    List ContractViolation :=
  if !detectionResults.any fun found => found.ruleId == some requirement.ruleId then
    if requirement.required then
      [{ code := .requiredDetectionMissing
         message := lit "required detection result is missing: " ++ requirement.ruleId
         remediation := some (lit ("run the required detection rule against this evidence set " ++
           "in CI")) }]
    else []
  else
    let presentEventTypes := eventObjects.filterMap fun eventObject =>
      linkText eventObject "event_type"
    let missingEventTypes := sortedMissing requirement.requiredEventTypes presentEventTypes
    let missingStatuses := sortedMissing requirement.requiredVerificationStatuses
      (verificationStatuses eventObjects)
    (if missingEventTypes.isEmpty then []
     else
      [{ code := .detectionControlDependencyMissing
         message := lit "detection " ++ requirement.ruleId ++ lit " depends on missing events: " ++
           reprTexts P missingEventTypes
         remediation := some (lit ("ensure the detection is only considered covered with " ++
           "required telemetry")) }]) ++
    if missingStatuses.isEmpty then []
    else
      [{ code := .detectionControlDependencyMissing
         message := lit "detection " ++ requirement.ruleId ++
           lit " depends on missing statuses: " ++ reprTexts P missingStatuses
         field := some (lit "payload.evidence_link.verification_status")
         remediation := some (lit ("ensure detection coverage includes required verification " ++
           "states")) }]

/-! ## Verification statuses -/

def validateRequiredStatus (required : Option Str) (statuses : List Str) :
    List ContractViolation :=
  match required with
  | none => []
  | some status =>
    if statuses.contains status then []
    else
      [{ code := .verificationStatusMissing
         message := lit "required verification status is missing: " ++ status
         field := some (lit "payload.evidence_link.verification_status")
         remediation := some (lit ("emit explicit verification evidence before satisfying this " ++
           "contract")) }]

def validateAllowedStatuses (allowed : Finset Str) (statuses : List Str) :
    List ContractViolation :=
  if allowed = ∅ then []
  else
    (sortTexts (statuses.dedup.filter fun status => status ∉ allowed)).map fun status =>
      { code := .verificationStatusNotAllowed
        message := lit "verification status is not allowed: " ++ status
        field := some (lit "payload.evidence_link.verification_status")
        remediation := some (lit ("update the contract or emit a supported verification " ++
          "outcome")) }

end Requirements

end Contracts

open Contracts in
def validateContract (P : Platform) (events : List EventEnvelope) (contract : LineageContract)
    (detectionResults : List DetectionMatch) (journalVerification : Option VerificationResult) :
    Except PyError ContractResult := do
  let eventObjects ← events.mapM (eventToDict P)
  let integrity :=
    if contract.hashChainRequired then validateJournalIntegrityRequirement events journalVerification
    else []
  let required ← contract.events.mapM (validateEventRequirement P events)
  let relationships ← contract.relationships.mapM (validateRelationship P events)
  let evidenceLinks ← contract.evidenceLinks.mapM (validateEvidenceLinkRequirement P events)
  let latencies ← contract.latencyRequirements.mapM (validateLatencyRequirement P events)
  let descriptors ← contract.descriptorRequirements.mapM (validateDescriptorRequirement P events)
  let detections := contract.detectionRequirements.map
    (validateDetectionRequirement P eventObjects detectionResults)
  let statuses := verificationStatuses eventObjects
  let violations := integrity ++ required.flatten ++ relationships.flatten ++
    evidenceLinks.flatten ++ latencies.flatten ++ descriptors.flatten ++ detections.flatten ++
    validateRequiredStatus contract.requiredVerificationStatus statuses ++
    validateAllowedStatuses contract.allowedVerificationStatuses statuses
  .ok { contractName := contract.name, ok := violations.isEmpty, violations }

end ActionLineage
