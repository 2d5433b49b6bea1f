import ActionLineage.Contracts.Validation
import ActionLineage.Detection.RuleSaver

/-!
# Contract documents

`contract_from_dict` reads a contract from its document and `contract_to_dict` writes one. The
reader fills in defaults, takes null for an absent field and takes one text for a list of it. The
last is where the two differ: the empty text is taken as the list of it, and written as a list which
the reader refuses.
-/

namespace ActionLineage

open Py

/-- What the reader raises. -/
inductive ContractError
  /-- An `ActionLineageValidationError`. -/
  | validationError (message : String)
  | overflowError (message : String)
deriving DecidableEq, Repr

namespace Contracts

/-! ## Fields -/

/-- `data.get(field, default)`. -/
def fieldOr (data : Obj) (name : String) (default : Value) : Value :=
  (Obj.get? data (lit name)).getD default

/-- `_object`. -/
def object (value : Value) (what : String) : Except ContractError Obj :=
  match value with
  | .null => .ok []
  | .dict kvs => .ok kvs
  | _ => .error (.validationError (what ++ " must be an object"))

/-- The loop of `_objects`, from an index. -/
def objectsFrom (what : String) : Nat → List Value → Except ContractError (List Obj)
  | _, [] => .ok []
  | i, .dict kvs :: rest => do .ok (kvs :: (← objectsFrom what (i + 1) rest))
  | i, _ => .error (.validationError (what ++ "." ++ toString i ++ " must be an object"))

/-- `_objects`. -/
def objects (value : Value) (what : String) : Except ContractError (List Obj) :=
  match value with
  | .null => .ok []
  | .list xs => objectsFrom what 0 xs
  | _ => .error (.validationError (what ++ " must be a list"))

/-- `_strings`. -/
def stringsOf (value : Value) : Except ContractError (List Str) :=
  match value with
  | .null => .ok []
  | .str s => .ok [s]
  | .list xs =>
    xs.mapM fun item =>
      match stringOrNone item with
      | some s => .ok s
      | none => .error (.validationError "expected a list of nonempty strings")
  | _ => .error (.validationError "expected a list of strings")

/-- `_required_string`. -/
def requiredString (data : Obj) (name : String) : Except ContractError Str :=
  match stringOrNone (field data name) with
  | some s => .ok s
  | none => .error (.validationError (name ++ " is required"))

/-- `float(i)`. -/
def floatOfInt (i : Int) : Except ContractError Binary64 :=
  (Binary64.ofInt i).elim (.error (.overflowError "int too large to convert to float")) .ok

/-- `float(_required_number(data, field))`; a truth value is an integer. -/
def requiredNumber (data : Obj) (name : String) : Except ContractError Binary64 :=
  match field data name with
  | .bool b => floatOfInt (if b then 1 else 0)
  | .int i => floatOfInt i
  | .float x => .ok x
  | _ => .error (.validationError (name ++ " must be a number"))

/-! ## Reading -/

def eventFromDict (item : Obj) : Except ContractError ContractEventRequirement := do
  let eventType ← requiredString item "type"
  let requiredFields ← stringsOf (fieldOr item "requiredFields" (.list []))
  .ok { eventType, requiredFields }

def relationshipFromDict (item : Obj) : Except ContractError ContractRelationshipRequirement := do
  let childEventType ← requiredString item "child"
  let parentEventType ← requiredString item "parent"
  .ok { childEventType, parentEventType, referenceField := stringOrNone (field item "referenceField") }

def evidenceLinkFromDict (item : Obj) : Except ContractError ContractEvidenceLinkRequirement := do
  let corroborationTypes ← stringsOf (fieldOr item "corroborationTypes" (.list []))
  .ok
    { eventType := (stringOrNone (field item "eventType")).getD (lit "side_effect.verified")
      subjectEventType := stringOrNone (field item "subjectEventType")
      evidenceEventType := stringOrNone (field item "evidenceEventType")
      relationship := stringOrNone (field item "relationship")
      verificationStatus := stringOrNone (field item "verificationStatus")
      corroborationTypes
      observerIdentity := stringOrNone (field item "observerIdentity") }

def latencyFromDict (item : Obj) : Except ContractError ContractLatencyRequirement := do
  let startEventType ← requiredString item "startEventType"
  let endEventType ← requiredString item "endEventType"
  let maxSeconds ← requiredNumber item "maxSeconds"
  let groupBy ← stringsOf (fieldOr item "groupBy" (.list [.str (lit "correlation.run_id")]))
  .ok { startEventType, endEventType, maxSeconds, groupBy }

def descriptorFromDict (item : Obj) : Except ContractError ContractDescriptorRequirement := do
  let eventType ← requiredString item "eventType"
  .ok
    { eventType
      descriptorHashField := (stringOrNone (field item "descriptorHashField")).getD
        (lit "payload.tool_identity.descriptor_hash")
      toolNameField := (stringOrNone (field item "toolNameField")).getD
        (lit "payload.tool_identity.name")
      hashPrefix := (stringOrNone (field item "hashPrefix")).getD (lit "sha256:") }

def detectionFromDict (item : Obj) : Except ContractError ContractDetectionRequirement := do
  let ruleId ← requiredString item "ruleId"
  let requiredEventTypes ← stringsOf (fieldOr item "requiredEventTypes" (.list []))
  let requiredVerificationStatuses ←
    stringsOf (fieldOr item "requiredVerificationStatuses" (.list []))
  .ok
    { ruleId, required := (fieldOr item "required" (.bool true)).truthy
      requiredEventTypes, requiredVerificationStatuses }

/-- An object inside another, or a default where the key is absent. -/
def objectOr (data : Obj) (key what : String) (default : Obj) : Except ContractError Obj :=
  match Obj.get? data (lit key) with
  | none => .ok default
  | some v => object v what

def objectsIn (requirements : Obj) (key : String) : Except ContractError (List Obj) :=
  objects (field requirements key) ("requirements." ++ key)

/-- The name of the document, from the first of three places that has one. -/
def contractName (data spec metadata : Obj) : Except ContractError Str :=
  match (stringOrNone (field metadata "name") <|> stringOrNone (field spec "name"))
      <|> stringOrNone (field data "name") with
  | some name => .ok name
  | none => .error (.validationError "contract metadata.name is required")

end Contracts

open Contracts

def contractFromDict (data : Obj) : Except ContractError LineageContract := do
  let spec ← objectOr data "spec" "spec" data
  let metadata ← objectOr data "metadata" "metadata" []
  let requirements ← objectOr spec "requirements" "spec.requirements" spec
  let name ← contractName data spec metadata
  let verification ← object (field requirements "verification") "requirements.verification"
  let integrity ← object (field requirements "integrity") "requirements.integrity"
  let events ← (← objectsIn requirements "events").mapM eventFromDict
  let relationships ← (← objectsIn requirements "relationships").mapM relationshipFromDict
  let evidenceLinks ← (← objectsIn requirements "evidenceLinks").mapM evidenceLinkFromDict
  let latencyRequirements ← (← objectsIn requirements "latency").mapM latencyFromDict
  let descriptorRequirements ← (← objectsIn requirements "descriptors").mapM descriptorFromDict
  let detectionRequirements ← (← objectsIn requirements "detections").mapM detectionFromDict
  let allowedStatuses ← stringsOf (fieldOr verification "allowedStatuses" (.list []))
  .ok
    { name, events, relationships, evidenceLinks, latencyRequirements, descriptorRequirements
      detectionRequirements
      allowedVerificationStatuses := allowedStatuses.toFinset
      requiredVerificationStatus := Contracts.stringOrNone (field verification "requiredStatus")
      hashChainRequired := (fieldOr integrity "hashChainRequired" (.bool true)).truthy }

/-! ## Writing -/

namespace Contracts

def eventToDict (requirement : ContractEventRequirement) : Obj :=
  [(lit "type", .str requirement.eventType), (lit "requiredFields", strings requirement.requiredFields)]

def relationshipToDict (requirement : ContractRelationshipRequirement) : Obj :=
  [(lit "child", .str requirement.childEventType), (lit "parent", .str requirement.parentEventType),
   (lit "referenceField", optionalStr requirement.referenceField)]

def evidenceLinkToDict (requirement : ContractEvidenceLinkRequirement) : Obj :=
  [(lit "eventType", .str requirement.eventType),
   (lit "subjectEventType", optionalStr requirement.subjectEventType),
   (lit "evidenceEventType", optionalStr requirement.evidenceEventType),
   (lit "relationship", optionalStr requirement.relationship),
   (lit "verificationStatus", optionalStr requirement.verificationStatus),
   (lit "corroborationTypes", strings requirement.corroborationTypes),
   (lit "observerIdentity", optionalStr requirement.observerIdentity)]

def latencyToDict (requirement : ContractLatencyRequirement) : Obj :=
  [(lit "startEventType", .str requirement.startEventType),
   (lit "endEventType", .str requirement.endEventType),
   (lit "maxSeconds", .float requirement.maxSeconds), (lit "groupBy", strings requirement.groupBy)]

def descriptorToDict (requirement : ContractDescriptorRequirement) : Obj :=
  [(lit "eventType", .str requirement.eventType),
   (lit "descriptorHashField", .str requirement.descriptorHashField),
   (lit "toolNameField", .str requirement.toolNameField),
   (lit "hashPrefix", .str requirement.hashPrefix)]

def detectionToDict (requirement : ContractDetectionRequirement) : Obj :=
  [(lit "ruleId", .str requirement.ruleId), (lit "required", .bool requirement.required),
   (lit "requiredEventTypes", strings requirement.requiredEventTypes),
   (lit "requiredVerificationStatuses", strings requirement.requiredVerificationStatuses)]

def sectionToDict {α : Type} (toDict : α → Obj) (xs : List α) : Value :=
  .list (xs.map fun x => .dict (toDict x))

def requirementsToDict (contract : LineageContract) : Obj :=
  [(lit "events", sectionToDict eventToDict contract.events),
   (lit "relationships", sectionToDict relationshipToDict contract.relationships),
   (lit "evidenceLinks", sectionToDict evidenceLinkToDict contract.evidenceLinks),
   (lit "latency", sectionToDict latencyToDict contract.latencyRequirements),
   (lit "descriptors", sectionToDict descriptorToDict contract.descriptorRequirements),
   (lit "detections", sectionToDict detectionToDict contract.detectionRequirements),
   (lit "verification", .dict
    [(lit "allowedStatuses", strings (contract.allowedVerificationStatuses.sort)),
     (lit "requiredStatus", optionalStr contract.requiredVerificationStatus)]),
   (lit "integrity", .dict [(lit "hashChainRequired", .bool contract.hashChainRequired)])]

end Contracts

def contractToDict (contract : LineageContract) : Obj :=
  [(lit "apiVersion", .str (lit "actionlineage.dev/contract/v1")),
   (lit "kind", .str (lit "LineageContract")),
   (lit "metadata", .dict [(lit "name", .str contract.name)]),
   (lit "spec", .dict [(lit "requirements", .dict (requirementsToDict contract))])]

/-! ## The documents that are read back -/

namespace Contracts

def objectOf : Value → Obj
  | .dict kvs => kvs
  | _ => []

def listOf : Value → List Value
  | .list xs => xs
  | _ => []

def isEmptyText : Value → Bool
  | .str s => s == []
  | _ => false

theorem isEmptyText_iff {v : Value} : isEmptyText v = true ↔ v = .str [] := by
  cases v with
  | str s => exact beq_iff_eq.trans (Value.str.injEq s []).symm.to_iff
  | _ => exact ⟨fun h => (nomatch h), fun h => nomatch h⟩

instance (v : Value) : Decidable (v = .str []) := decidable_of_iff _ isEmptyText_iff

def nested (data : Obj) (key : String) (default : Obj) : Obj :=
  ((Obj.get? data (lit key)).map objectOf).getD default

/-- The object of a document that has its requirements. -/
def requirementsOf (data : Obj) : Obj :=
  nested (nested data "spec" data) "requirements" (nested data "spec" data)

/-- An entry of the section gives the empty text for the field. -/
def GivesEmptyText (requirements : Obj) (key name : String) : Prop :=
  ∃ item ∈ listOf (field requirements key), field (objectOf item) name = .str []

instance (requirements : Obj) (key name : String) :
    Decidable (GivesEmptyText requirements key name) :=
  inferInstanceAs (Decidable (∃ item ∈ listOf (field requirements key), _ = _))

end Contracts

/-- Some list of texts in the document is the empty text instead. -/
def HasEmptyText (data : Obj) : Prop :=
  GivesEmptyText (requirementsOf data) "events" "requiredFields"
    ∨ GivesEmptyText (requirementsOf data) "evidenceLinks" "corroborationTypes"
    ∨ GivesEmptyText (requirementsOf data) "latency" "groupBy"
    ∨ GivesEmptyText (requirementsOf data) "detections" "requiredEventTypes"
    ∨ GivesEmptyText (requirementsOf data) "detections" "requiredVerificationStatuses"
    ∨ field (objectOf (field (requirementsOf data) "verification")) "allowedStatuses" = .str []

instance (data : Obj) : Decidable (HasEmptyText data) := inferInstanceAs (Decidable (_ ∨ _))

namespace Contracts

section Fields

variable {data : Obj} {name : String}

theorem stringOrNone_eq_some {v : Value} {s : Str} :
    stringOrNone v = some s ↔ s ≠ [] ∧ v = .str s := by
  unfold stringOrNone
  split
  · rename_i c t
    refine ⟨fun h => ?_, fun h => congrArg some (Value.str.inj h.2)⟩
    cases h
    exact ⟨List.cons_ne_nil _ _, rfl⟩
  · rename_i hne
    refine ⟨fun h => (nomatch h), fun h => ?_⟩
    obtain ⟨c, t, rfl⟩ := List.exists_cons_of_ne_nil h.1
    exact absurd h.2 (hne c t)

theorem stringOrNone_ne_nil (v : Value) : stringOrNone v ≠ some [] :=
  fun h => (stringOrNone_eq_some.mp h).1 rfl

@[simp]
theorem stringOrNone_optionalStr (v : Value) :
    stringOrNone (optionalStr (stringOrNone v)) = stringOrNone v := by
  cases h : stringOrNone v with
  | none => rfl
  | some s => exact stringOrNone_eq_some.mpr ⟨(stringOrNone_eq_some.mp h).1, rfl⟩

theorem getD_again (v : Value) {default : Str} (h : default ≠ []) (d : Str) :
    (stringOrNone (.str ((stringOrNone v).getD default))).getD d
      = (stringOrNone v).getD default := by
  have hne := getD_ne_nil (stringOrNone_ne_nil v) h
  rw [stringOrNone_eq_some.mpr ⟨hne, rfl⟩, Option.getD_some]

theorem requiredString_eq_ok {s : Str} :
    requiredString data name = .ok s ↔ s ≠ [] ∧ field data name = .str s := by
  rw [← stringOrNone_eq_some]
  unfold requiredString
  cases stringOrNone (field data name) with
  | none => exact ⟨fun h => (nomatch h), fun h => nomatch h⟩
  | some t => exact ⟨fun h => congrArg some (Except.ok.inj h), fun h => congrArg _ (Option.some.inj h)⟩

theorem stringsOf_strings {xs ys : List Str} :
    stringsOf (strings xs) = .ok ys ↔ ys = xs ∧ [] ∉ xs := by
  have hitem : ∀ s t : Str, (match stringOrNone (.str s) with
      | some s => Except.ok s
      | none => .error (ContractError.validationError "expected a list of nonempty strings"))
        = .ok t ↔ t = s ∧ s ≠ [] := by
    intro s t
    cases s with
    | nil => exact ⟨fun h => (nomatch h), fun h => absurd rfl h.2⟩
    | cons c s => exact ⟨fun h => ⟨(Except.ok.inj h).symm, List.cons_ne_nil _ _⟩,
        fun h => congrArg _ h.1.symm⟩
  refine mapM_eq_ok.trans (List.forall₂_map_left_iff.trans ?_)
  simp only [hitem]
  constructor
  · intro h
    induction h with
    | nil => exact ⟨rfl, List.not_mem_nil⟩
    | cons hab _ ih =>
      refine ⟨by rw [hab.1, ih.1], ?_⟩
      rw [List.mem_cons, not_or]
      exact ⟨hab.2.symm, ih.2⟩
  · intro h
    obtain ⟨rfl, hnil⟩ := h
    refine List.forall₂_same.mpr fun s hs => ⟨rfl, ?_⟩
    exact fun hs' => hnil (hs' ▸ hs)

/-- Only the empty text is read as a list that has it. -/
theorem stringsOf_nil_mem {v : Value} {xs : List Str} (h : stringsOf v = .ok xs) :
    [] ∈ xs ↔ v = .str [] := by
  unfold stringsOf at h
  split at h
  · cases h
    exact ⟨fun h => absurd h List.not_mem_nil, fun h => nomatch h⟩
  · cases h
    rw [List.mem_singleton, Value.str.injEq]
    exact eq_comm
  · refine ⟨fun hnil => ?_, fun h => nomatch h⟩
    obtain ⟨item, -, hitem⟩ := exists_of_forall₂ (mapM_eq_ok.mp h) hnil
    split at hitem
    · rename_i s hs
      cases hitem
      exact absurd hs (stringOrNone_ne_nil item)
    · cases hitem
  · cases h

/-- A default stands for an absent field only. -/
theorem fieldOr_eq_nil {xs : List Value} :
    fieldOr data name (.list xs) = .str [] ↔ field data name = .str [] := by
  unfold fieldOr field
  cases Obj.get? data (lit name) with
  | none => exact ⟨fun h => (nomatch h), fun h => nomatch h⟩
  | some v => rfl

theorem strings_again {xs ys : List Str} {default : List Value}
    (h : stringsOf (fieldOr data name (.list default)) = .ok xs) :
    stringsOf (strings xs) = .ok ys ↔ ys = xs ∧ field data name ≠ .str [] := by
  rw [stringsOf_strings, stringsOf_nil_mem h, fieldOr_eq_nil]

end Fields

/-! ## One requirement -/

theorem event_again {item : Obj} {r : ContractEventRequirement} (h : eventFromDict item = .ok r) :
    eventFromDict (eventToDict r) = .ok r ↔ field item "requiredFields" ≠ .str [] := by
  obtain ⟨eventType, htype, h⟩ := bind_eq_ok.mp h
  obtain ⟨fields, hfields, h⟩ := bind_eq_ok.mp h
  cases h
  have htype' : requiredString (eventToDict ⟨eventType, fields⟩) "type" = .ok eventType :=
    requiredString_eq_ok.mpr ⟨(requiredString_eq_ok.mp htype).1, rfl⟩
  have hfields' : fieldOr (eventToDict ⟨eventType, fields⟩) "requiredFields" (.list [])
      = strings fields := rfl
  simp only [eventFromDict, bind_eq_ok, htype', hfields', strings_again hfields, Except.ok.injEq,
    exists_eq_left', and_assoc, exists_eq_left, and_true]

theorem relationship_again {item : Obj} {r : ContractRelationshipRequirement}
    (h : relationshipFromDict item = .ok r) :
    relationshipFromDict (relationshipToDict r) = .ok r := by
  obtain ⟨child, hchild, h⟩ := bind_eq_ok.mp h
  obtain ⟨parent, hparent, h⟩ := bind_eq_ok.mp h
  cases h
  refine bind_eq_ok.mpr
    ⟨child, requiredString_eq_ok.mpr ⟨(requiredString_eq_ok.mp hchild).1, rfl⟩, ?_⟩
  refine bind_eq_ok.mpr
    ⟨parent, requiredString_eq_ok.mpr ⟨(requiredString_eq_ok.mp hparent).1, rfl⟩, ?_⟩
  congr 2
  exact stringOrNone_optionalStr _

theorem evidenceLinkFromDict_toDict (r : ContractEvidenceLinkRequirement) :
    evidenceLinkFromDict (evidenceLinkToDict r) = (do
      let corroborationTypes ← stringsOf (strings r.corroborationTypes)
      .ok
        { eventType := (stringOrNone (.str r.eventType)).getD (lit "side_effect.verified")
          subjectEventType := stringOrNone (optionalStr r.subjectEventType)
          evidenceEventType := stringOrNone (optionalStr r.evidenceEventType)
          relationship := stringOrNone (optionalStr r.relationship)
          verificationStatus := stringOrNone (optionalStr r.verificationStatus)
          corroborationTypes
          observerIdentity := stringOrNone (optionalStr r.observerIdentity) }) := rfl

theorem evidenceLink_again {item : Obj} {r : ContractEvidenceLinkRequirement}
    (h : evidenceLinkFromDict item = .ok r) :
    evidenceLinkFromDict (evidenceLinkToDict r) = .ok r ↔
      field item "corroborationTypes" ≠ .str [] := by
  obtain ⟨types, htypes, h⟩ := bind_eq_ok.mp h
  cases h
  have heventType := getD_again (field item "eventType")
    (show lit "side_effect.verified" ≠ [] by decide) (lit "side_effect.verified")
  rw [evidenceLinkFromDict_toDict, heventType]
  simp only [bind_eq_ok, stringOrNone_optionalStr, strings_again htypes, Except.ok.injEq, and_assoc,
    exists_eq_left, and_true]

theorem latency_again {item : Obj} {r : ContractLatencyRequirement}
    (h : latencyFromDict item = .ok r) :
    latencyFromDict (latencyToDict r) = .ok r ↔ field item "groupBy" ≠ .str [] := by
  obtain ⟨start, hstart, h⟩ := bind_eq_ok.mp h
  obtain ⟨finish, hfinish, h⟩ := bind_eq_ok.mp h
  obtain ⟨seconds, -, h⟩ := bind_eq_ok.mp h
  obtain ⟨groupBy, hgroupBy, h⟩ := bind_eq_ok.mp h
  cases h
  have hstart' : requiredString (latencyToDict ⟨start, finish, seconds, groupBy⟩) "startEventType"
      = .ok start := requiredString_eq_ok.mpr ⟨(requiredString_eq_ok.mp hstart).1, rfl⟩
  have hfinish' : requiredString (latencyToDict ⟨start, finish, seconds, groupBy⟩) "endEventType"
      = .ok finish := requiredString_eq_ok.mpr ⟨(requiredString_eq_ok.mp hfinish).1, rfl⟩
  have hseconds' : requiredNumber (latencyToDict ⟨start, finish, seconds, groupBy⟩) "maxSeconds"
      = .ok seconds := rfl
  have hgroupBy' : fieldOr (latencyToDict ⟨start, finish, seconds, groupBy⟩) "groupBy"
      (.list [.str (lit "correlation.run_id")]) = strings groupBy := rfl
  simp only [latencyFromDict, bind_eq_ok, hstart', hfinish', hseconds', hgroupBy',
    strings_again hgroupBy, Except.ok.injEq, exists_eq_left', and_assoc, exists_eq_left, and_true]

theorem descriptor_again {item : Obj} {r : ContractDescriptorRequirement}
    (h : descriptorFromDict item = .ok r) : descriptorFromDict (descriptorToDict r) = .ok r := by
  obtain ⟨eventType, htype, h⟩ := bind_eq_ok.mp h
  cases h
  refine bind_eq_ok.mpr
    ⟨eventType, requiredString_eq_ok.mpr ⟨(requiredString_eq_ok.mp htype).1, rfl⟩, ?_⟩
  congr 2
  · exact getD_again _ (by decide) _
  · exact getD_again _ (by decide) _
  · exact getD_again _ (by decide) _

theorem detection_again {item : Obj} {r : ContractDetectionRequirement}
    (h : detectionFromDict item = .ok r) :
    detectionFromDict (detectionToDict r) = .ok r ↔ field item "requiredEventTypes" ≠ .str []
      ∧ field item "requiredVerificationStatuses" ≠ .str [] := by
  obtain ⟨ruleId, hrule, h⟩ := bind_eq_ok.mp h
  obtain ⟨types, htypes, h⟩ := bind_eq_ok.mp h
  obtain ⟨statuses, hstatuses, h⟩ := bind_eq_ok.mp h
  cases h
  generalize (fieldOr item "required" (.bool true)).truthy = required
  have hrule' : requiredString (detectionToDict ⟨ruleId, required, types, statuses⟩) "ruleId"
      = .ok ruleId := requiredString_eq_ok.mpr ⟨(requiredString_eq_ok.mp hrule).1, rfl⟩
  have hrequired : (fieldOr (detectionToDict ⟨ruleId, required, types, statuses⟩) "required"
      (.bool true)).truthy = required := rfl
  have htypes' : fieldOr (detectionToDict ⟨ruleId, required, types, statuses⟩) "requiredEventTypes"
      (.list []) = strings types := rfl
  have hstatuses' : fieldOr (detectionToDict ⟨ruleId, required, types, statuses⟩)
      "requiredVerificationStatuses" (.list []) = strings statuses := rfl
  simp only [detectionFromDict, bind_eq_ok, hrule', hrequired, htypes', hstatuses',
    strings_again htypes, strings_again hstatuses, Except.ok.injEq, exists_eq_left', and_assoc,
    exists_eq_left, and_true]

/-! ## A section of requirements -/

theorem object_eq {v : Value} {what : String} {kvs : Obj} (h : object v what = .ok kvs) :
    kvs = objectOf v := by
  unfold object at h
  split at h
  · cases h
    rfl
  · cases h
    rfl
  · cases h

theorem objectOr_eq {data : Obj} {key what : String} {default kvs : Obj}
    (h : objectOr data key what default = .ok kvs) : kvs = nested data key default := by
  unfold objectOr at h
  unfold nested
  split at h
  · rename_i hget
    cases h
    rw [hget]
    rfl
  · rename_i v hget
    rw [hget, object_eq h]
    rfl

theorem objectsFrom_eq_ok {what : String} {i : Nat} {xs : List Value} {items : List Obj} :
    objectsFrom what i xs = .ok items ↔ xs = items.map .dict := by
  induction xs generalizing i items with
  | nil =>
    refine ⟨fun h => ?_, fun h => ?_⟩
    · cases h
      rfl
    · rw [List.map_eq_nil_iff.mp h.symm]
      rfl
  | cons x xs ih =>
    cases x with
    | dict kvs =>
      unfold objectsFrom
      rw [bind_eq_ok]
      constructor
      · intro h
        obtain ⟨items', hitems', h⟩ := h
        cases h
        rw [ih.mp hitems', List.map_cons]
      · intro h
        cases items with
        | nil => cases h
        | cons item items =>
          obtain ⟨hitem, hrest⟩ := List.cons_eq_cons.mp h
          cases hitem
          exact ⟨items, ih.mpr hrest, rfl⟩
    | _ =>
      refine ⟨fun h => (nomatch h), fun h => ?_⟩
      cases items <;> cases h

theorem objects_sectionToDict {α : Type} (toDict : α → Obj) (xs : List α) (what : String) :
    objects (sectionToDict toDict xs) what = .ok (xs.map toDict) := by
  refine objectsFrom_eq_ok.mpr ?_
  rw [List.map_map]
  rfl

theorem exists_objects {v : Value} {what : String} {items : List Obj}
    (h : objects v what = .ok items) {P : Obj → Prop} :
    (∃ x ∈ listOf v, P (objectOf x)) ↔ ∃ item ∈ items, P item := by
  unfold objects at h
  split at h
  · cases h
    exact Iff.intro (fun h => nomatch h) (fun h => nomatch h)
  · rename_i xs
    show (∃ x ∈ xs, P (objectOf x)) ↔ _
    rw [objectsFrom_eq_ok.mp h]
    simp only [List.mem_map, exists_exists_and_eq_and]
    rfl
  · cases h

/-- A section is read back as far as its entries are. -/
theorem section_again {α : Type} {read : Obj → Except ContractError α} {toDict : α → Obj}
    {P : Obj → Prop} (hagain : ∀ item r, read item = .ok r → (read (toDict r) = .ok r ↔ ¬ P item))
    {v : Value} {what : String} {items : List Obj} {rs : List α} (hitems : objects v what = .ok items)
    (hread : items.mapM read = .ok rs) :
    (rs.map toDict).mapM read = .ok rs ↔ ¬ ∃ item ∈ listOf v, P (objectOf item) := by
  have hpairs := mapM_eq_ok.mp hread
  rw [mapM_eq_ok, List.forall₂_map_left_iff, List.forall₂_same, exists_objects hitems]
  constructor
  · intro h hrefused
    obtain ⟨item, hmem, hitem⟩ := hrefused
    obtain ⟨r, hr, hpair⟩ := forall₂_mem_left hpairs hmem
    exact (hagain item r hpair).mp (h r hr) hitem
  · intro h r hr
    obtain ⟨item, hmem, hpair⟩ := exists_of_forall₂ hpairs hr
    exact (hagain item r hpair).mpr fun hitem => h ⟨item, hmem, hitem⟩

theorem contractName_ne_nil {data spec metadata : Obj} {name : Str}
    (h : contractName data spec metadata = .ok name) : name ≠ [] := by
  unfold contractName at h
  split at h
  · rename_i s hs
    cases h
    rw [Option.orElse_eq_orElse, Option.orElse_eq_or, Option.orElse_eq_or, Option.or_eq_some_iff,
      Option.or_eq_some_iff] at hs
    rcases hs with (hs | ⟨-, hs⟩) | ⟨-, hs⟩
    · exact (stringOrNone_eq_some.mp hs).1
    · exact (stringOrNone_eq_some.mp hs).1
    · exact (stringOrNone_eq_some.mp hs).1
  · cases h

/-- Reading a written contract reads its entries. -/
theorem contractFromDict_toDict {c : LineageContract} (hname : c.name ≠ []) :
    contractFromDict (contractToDict c) = (do
      let events ← (c.events.map eventToDict).mapM eventFromDict
      let relationships ← (c.relationships.map relationshipToDict).mapM relationshipFromDict
      let evidenceLinks ← (c.evidenceLinks.map evidenceLinkToDict).mapM evidenceLinkFromDict
      let latencyRequirements ← (c.latencyRequirements.map latencyToDict).mapM latencyFromDict
      let descriptorRequirements ←
        (c.descriptorRequirements.map descriptorToDict).mapM descriptorFromDict
      let detectionRequirements ←
        (c.detectionRequirements.map detectionToDict).mapM detectionFromDict
      let allowedStatuses ← stringsOf (strings c.allowedVerificationStatuses.sort)
      .ok
        { name := c.name, events, relationships, evidenceLinks, latencyRequirements
          descriptorRequirements, detectionRequirements
          allowedVerificationStatuses := allowedStatuses.toFinset
          requiredVerificationStatus := stringOrNone (optionalStr c.requiredVerificationStatus)
          hashChainRequired := c.hashChainRequired }) := by
  have hcontractName : ∀ data spec, contractName data spec [(lit "name", .str c.name)]
      = .ok c.name := by
    intro data spec
    have hfound : stringOrNone (field [(lit "name", .str c.name)] "name") = some c.name :=
      stringOrNone_eq_some.mpr ⟨hname, rfl⟩
    unfold contractName
    rw [hfound]
    rfl
  have hevents : objectsIn (requirementsToDict c) "events" = .ok (c.events.map eventToDict) :=
    objects_sectionToDict _ _ _
  have hrelationships : objectsIn (requirementsToDict c) "relationships"
      = .ok (c.relationships.map relationshipToDict) := objects_sectionToDict _ _ _
  have hevidenceLinks : objectsIn (requirementsToDict c) "evidenceLinks"
      = .ok (c.evidenceLinks.map evidenceLinkToDict) := objects_sectionToDict _ _ _
  have hlatency : objectsIn (requirementsToDict c) "latency"
      = .ok (c.latencyRequirements.map latencyToDict) := objects_sectionToDict _ _ _
  have hdescriptors : objectsIn (requirementsToDict c) "descriptors"
      = .ok (c.descriptorRequirements.map descriptorToDict) := objects_sectionToDict _ _ _
  have hdetections : objectsIn (requirementsToDict c) "detections"
      = .ok (c.detectionRequirements.map detectionToDict) := objects_sectionToDict _ _ _
  have hspec : objectOr (contractToDict c) "spec" "spec" (contractToDict c)
      = .ok [(lit "requirements", .dict (requirementsToDict c))] := rfl
  have hmetadata : objectOr (contractToDict c) "metadata" "metadata" []
      = .ok [(lit "name", .str c.name)] := rfl
  have hrequirements : ∀ default, objectOr [(lit "requirements", .dict (requirementsToDict c))]
      "requirements" "spec.requirements" default = .ok (requirementsToDict c) := fun _ => rfl
  have hverification : object (field (requirementsToDict c) "verification")
      "requirements.verification" = .ok
        [(lit "allowedStatuses", strings c.allowedVerificationStatuses.sort),
         (lit "requiredStatus", optionalStr c.requiredVerificationStatus)] := rfl
  have hintegrity : object (field (requirementsToDict c) "integrity") "requirements.integrity"
      = .ok [(lit "hashChainRequired", .bool c.hashChainRequired)] := rfl
  unfold contractFromDict
  simp only [hspec, hmetadata, hrequirements, hcontractName, hverification, hintegrity, hevents,
    hrelationships, hevidenceLinks, hlatency, hdescriptors, hdetections, bind, Except.bind]
  rfl

/-- What a document's requirements are read as. -/
structure Reads (requirements : Obj) (c : LineageContract) : Prop where
  name : c.name ≠ []
  events : ∃ items, objectsIn requirements "events" = .ok items ∧
    items.mapM eventFromDict = .ok c.events
  relationships : ∃ items, objectsIn requirements "relationships" = .ok items ∧
    items.mapM relationshipFromDict = .ok c.relationships
  evidenceLinks : ∃ items, objectsIn requirements "evidenceLinks" = .ok items ∧
    items.mapM evidenceLinkFromDict = .ok c.evidenceLinks
  latencyRequirements : ∃ items, objectsIn requirements "latency" = .ok items ∧
    items.mapM latencyFromDict = .ok c.latencyRequirements
  descriptorRequirements : ∃ items, objectsIn requirements "descriptors" = .ok items ∧
    items.mapM descriptorFromDict = .ok c.descriptorRequirements
  detectionRequirements : ∃ items, objectsIn requirements "detections" = .ok items ∧
    items.mapM detectionFromDict = .ok c.detectionRequirements
  allowedStatuses : ∃ allowed, c.allowedVerificationStatuses = allowed.toFinset ∧
    stringsOf (fieldOr (objectOf (field requirements "verification")) "allowedStatuses" (.list []))
      = .ok allowed
  requiredStatus : ∃ v, c.requiredVerificationStatus = stringOrNone v

theorem reads_of_contractFromDict {data : Obj} {c : LineageContract}
    (h : contractFromDict data = .ok c) : Reads (requirementsOf data) c := by
  obtain ⟨spec, hspec, h⟩ := bind_eq_ok.mp h
  obtain ⟨metadata, -, h⟩ := bind_eq_ok.mp h
  obtain ⟨requirements, hrequirements, h⟩ := bind_eq_ok.mp h
  obtain ⟨name, hname, h⟩ := bind_eq_ok.mp h
  obtain ⟨verification, hverification, h⟩ := bind_eq_ok.mp h
  obtain ⟨integrity, -, h⟩ := bind_eq_ok.mp h
  obtain ⟨eventItems, heventItems, h⟩ := bind_eq_ok.mp h
  obtain ⟨events, hevents, h⟩ := bind_eq_ok.mp h
  obtain ⟨relationshipItems, hrelationshipItems, h⟩ := bind_eq_ok.mp h
  obtain ⟨relationships, hrelationships, h⟩ := bind_eq_ok.mp h
  obtain ⟨linkItems, hlinkItems, h⟩ := bind_eq_ok.mp h
  obtain ⟨evidenceLinks, hevidenceLinks, h⟩ := bind_eq_ok.mp h
  obtain ⟨latencyItems, hlatencyItems, h⟩ := bind_eq_ok.mp h
  obtain ⟨latencyRequirements, hlatency, h⟩ := bind_eq_ok.mp h
  obtain ⟨descriptorItems, hdescriptorItems, h⟩ := bind_eq_ok.mp h
  obtain ⟨descriptorRequirements, hdescriptors, h⟩ := bind_eq_ok.mp h
  obtain ⟨detectionItems, hdetectionItems, h⟩ := bind_eq_ok.mp h
  obtain ⟨detectionRequirements, hdetections, h⟩ := bind_eq_ok.mp h
  obtain ⟨allowed, hallowed, h⟩ := bind_eq_ok.mp h
  obtain rfl := Except.ok.inj h
  have hrequirements' : requirements = requirementsOf data := by
    rw [objectOr_eq hrequirements, objectOr_eq hspec]
    rfl
  rw [object_eq hverification] at hallowed
  rw [← hrequirements']
  exact
    { name := contractName_ne_nil hname
      events := ⟨eventItems, heventItems, hevents⟩
      relationships := ⟨relationshipItems, hrelationshipItems, hrelationships⟩
      evidenceLinks := ⟨linkItems, hlinkItems, hevidenceLinks⟩
      latencyRequirements := ⟨latencyItems, hlatencyItems, hlatency⟩
      descriptorRequirements := ⟨descriptorItems, hdescriptorItems, hdescriptors⟩
      detectionRequirements := ⟨detectionItems, hdetectionItems, hdetections⟩
      allowedStatuses := ⟨allowed, rfl, hallowed⟩
      requiredStatus := ⟨_, rfl⟩ }

/-- A contract is read back when each of its parts is. -/
theorem contractFromDict_toDict_iff {c : LineageContract} (hname : c.name ≠ [])
    (hstatus : ∃ v, c.requiredVerificationStatus = stringOrNone v) :
    contractFromDict (contractToDict c) = .ok c ↔
      (c.events.map eventToDict).mapM eventFromDict = .ok c.events
      ∧ (c.relationships.map relationshipToDict).mapM relationshipFromDict = .ok c.relationships
      ∧ (c.evidenceLinks.map evidenceLinkToDict).mapM evidenceLinkFromDict = .ok c.evidenceLinks
      ∧ (c.latencyRequirements.map latencyToDict).mapM latencyFromDict = .ok c.latencyRequirements
      ∧ (c.descriptorRequirements.map descriptorToDict).mapM descriptorFromDict
          = .ok c.descriptorRequirements
      ∧ (c.detectionRequirements.map detectionToDict).mapM detectionFromDict
          = .ok c.detectionRequirements
      ∧ [] ∉ c.allowedVerificationStatuses := by
  obtain ⟨v, hv⟩ := hstatus
  rw [contractFromDict_toDict hname, hv, stringOrNone_optionalStr, ← hv]
  constructor
  · intro h
    obtain ⟨events, hevents, h⟩ := bind_eq_ok.mp h
    obtain ⟨relationships, hrelationships, h⟩ := bind_eq_ok.mp h
    obtain ⟨evidenceLinks, hevidenceLinks, h⟩ := bind_eq_ok.mp h
    obtain ⟨latencyRequirements, hlatency, h⟩ := bind_eq_ok.mp h
    obtain ⟨descriptorRequirements, hdescriptors, h⟩ := bind_eq_ok.mp h
    obtain ⟨detectionRequirements, hdetections, h⟩ := bind_eq_ok.mp h
    obtain ⟨allowed, hallowed, h⟩ := bind_eq_ok.mp h
    rw [Except.ok.injEq] at h
    have hnil := (stringsOf_strings.mp hallowed).2
    rw [Finset.mem_sort] at hnil
    exact ⟨hevents.trans (congrArg (Except.ok ∘ LineageContract.events) h),
      hrelationships.trans (congrArg (Except.ok ∘ LineageContract.relationships) h),
      hevidenceLinks.trans (congrArg (Except.ok ∘ LineageContract.evidenceLinks) h),
      hlatency.trans (congrArg (Except.ok ∘ LineageContract.latencyRequirements) h),
      hdescriptors.trans (congrArg (Except.ok ∘ LineageContract.descriptorRequirements) h),
      hdetections.trans (congrArg (Except.ok ∘ LineageContract.detectionRequirements) h), hnil⟩
  · intro h
    obtain ⟨hevents, hrelationships, hevidenceLinks, hlatency, hdescriptors, hdetections, hnil⟩ := h
    have hallowed : stringsOf (strings c.allowedVerificationStatuses.sort)
        = .ok c.allowedVerificationStatuses.sort :=
      stringsOf_strings.mpr ⟨rfl, fun h => hnil ((Finset.mem_sort _).mp h)⟩
    rw [hevents, hrelationships, hevidenceLinks, hlatency, hdescriptors, hdetections, hallowed]
    show Except.ok _ = _
    rw [Finset.sort_toFinset]

end Contracts

/-- **Contract round trip.** A contract that was read is read again from its written document, unless
the document gave the empty text for a list of texts. -/
theorem contract_round_trip_iff (data : Obj) (c : LineageContract)
    (h : contractFromDict data = .ok c) :
    contractFromDict (contractToDict c) = .ok c ↔ ¬ HasEmptyText data := by
  have hreads := reads_of_contractFromDict h
  obtain ⟨eventItems, heventItems, hevents⟩ := hreads.events
  obtain ⟨relationshipItems, hrelationshipItems, hrelationships⟩ := hreads.relationships
  obtain ⟨linkItems, hlinkItems, hevidenceLinks⟩ := hreads.evidenceLinks
  obtain ⟨latencyItems, hlatencyItems, hlatency⟩ := hreads.latencyRequirements
  obtain ⟨descriptorItems, hdescriptorItems, hdescriptors⟩ := hreads.descriptorRequirements
  obtain ⟨detectionItems, hdetectionItems, hdetections⟩ := hreads.detectionRequirements
  obtain ⟨allowed, hfinset, hallowed⟩ := hreads.allowedStatuses
  have hrelationshipsAgain := (section_again (P := fun _ => False)
    (fun _ _ h => iff_of_true (relationship_again h) not_false) hrelationshipItems hrelationships).mpr
      fun h => h.choose_spec.2
  have hdescriptorsAgain := (section_again (P := fun _ => False)
    (fun _ _ h => iff_of_true (descriptor_again h) not_false) hdescriptorItems hdescriptors).mpr
      fun h => h.choose_spec.2
  rw [contractFromDict_toDict_iff hreads.name hreads.requiredStatus,
    section_again (fun _ _ h => event_again h) heventItems hevents,
    section_again (fun _ _ h => evidenceLink_again h) hlinkItems hevidenceLinks,
    section_again (fun _ _ h => latency_again h) hlatencyItems hlatency,
    section_again (fun _ _ h => (detection_again h).trans not_or.symm) hdetectionItems hdetections,
    hfinset, List.mem_toFinset, stringsOf_nil_mem hallowed, fieldOr_eq_nil]
  simp only [hrelationshipsAgain, hdescriptorsAgain, true_and, and_or_left, exists_or]
  unfold HasEmptyText GivesEmptyText
  simp only [not_or, and_assoc]

/-- A contract that requires no field, written as the empty text. -/
def emptyTextDocument : Obj :=
  [(lit "metadata", .dict [(lit "name", .str (lit "export"))]),
   (lit "events", .list
    [.dict [(lit "type", .str (lit "side_effect.verified")), (lit "requiredFields", .str [])]])]

/-- What the document above is read as. -/
def emptyTextContract : LineageContract :=
  { name := lit "export", events := [⟨lit "side_effect.verified", [[]]⟩] }

/-- The contract above is refused in its written form. -/
theorem empty_text_contract_refused : contractFromDict emptyTextDocument = .ok emptyTextContract ∧
    contractFromDict (contractToDict emptyTextContract)
      = .error (.validationError "expected a list of nonempty strings") := by
  refine ⟨?_, ?_⟩ <;> decide +kernel

/-- A document with an entry in every section, some of them with the defaults. -/
def exportDocument : Obj :=
  [(lit "metadata", .dict [(lit "name", .str (lit "export"))]),
   (lit "spec", .dict [(lit "requirements", .dict
    [(lit "events", .list
      [.dict [(lit "type", .str (lit "tool.invocation.completed")),
        (lit "requiredFields", .str (lit "payload.tool"))]]),
     (lit "relationships", .list
      [.dict [(lit "child", .str (lit "side_effect.verified")),
        (lit "parent", .str (lit "tool.invocation.completed"))]]),
     (lit "evidenceLinks", .list [.dict [(lit "eventType", .null)]]),
     (lit "latency", .list
      [.dict [(lit "startEventType", .str (lit "tool.invocation.started")),
        (lit "endEventType", .str (lit "tool.invocation.completed")), (lit "maxSeconds", .int 30)]]),
     (lit "descriptors", .list [.dict [(lit "eventType", .str (lit "tool.invocation.started"))]]),
     (lit "detections", .list
      [.dict [(lit "ruleId", .str (lit "degraded")), (lit "required", .null)]]),
     (lit "verification", .dict
      [(lit "allowedStatuses", .list [.str (lit "verified"), .str (lit "degraded")])])])])]

theorem contract_round_trip_sample : ∃ c, contractFromDict exportDocument = .ok c ∧
    contractFromDict (contractToDict c) = .ok c := by
  obtain ⟨c, hc⟩ : ∃ c, contractFromDict exportDocument = .ok c :=
    exists_of_isOk (by decide +kernel)
  exact ⟨c, hc, (contract_round_trip_iff exportDocument c hc).mpr (by decide +kernel)⟩

end ActionLineage
