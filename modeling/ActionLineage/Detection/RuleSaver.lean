import ActionLineage.Detection.RuleLoader

/-!
# Saving a detection rule — `sequence_rule_to_dict`

A rule is written in the direct shape, with every field. A loaded rule has no field the loader would
refuse or fill in (`SequenceRule.Loaded`), so it is loaded again as it was saved, whatever the shape
it first came in (`rule_round_trip`).
-/

namespace ActionLineage

open Py

/-! ## Writing -/

def optionalStr : Option Str → Value
  | none => .null
  | some s => .str s

def strings (xs : List Str) : Value := .list (xs.map .str)

def optionalNumber : Option Binary64 → Value
  | none => .null
  | some x => .float x

def SequenceStage.toDict (stage : SequenceStage) : Value := .dict
  [(lit "name", optionalStr stage.name), (lit "event_type", .str stage.eventType),
   (lit "where", .dict stage.where)]

/-- The object of a rule. -/
def SequenceRule.items (rule : SequenceRule) : Obj :=
  [(lit "rule_id", optionalStr rule.ruleId), (lit "name", .str rule.name),
   (lit "version", .str rule.version), (lit "severity", .str rule.severity),
   (lit "tags", strings rule.tags), (lit "rationale", .str rule.rationale),
   (lit "references", strings rule.references),
   (lit "required_evidence_quality", strings rule.requiredEvidenceQuality),
   (lit "group_by", strings rule.groupBy), (lit "ordered", .bool rule.ordered),
   (lit "within_seconds", optionalNumber rule.withinSeconds),
   (lit "deduplicate", .bool rule.deduplicate),
   (lit "suppression_seconds", optionalNumber rule.suppressionSeconds),
   (lit "suppression_key", strings rule.suppressionKey),
   (lit "stages", .list (rule.stages.map SequenceStage.toDict))]

def sequenceRuleToDict (rule : SequenceRule) : Value := .dict rule.items

/-! ## Loaded rules -/

structure SequenceStage.Loaded (stage : SequenceStage) : Prop where
  eventType : stage.eventType ≠ []
  name : stage.name ≠ some []
  clause : validatedWhere (.dict stage.where) = .ok stage.where

/-- Nothing in the rule is empty that the loader wants filled. -/
structure SequenceRule.Loaded (rule : SequenceRule) : Prop where
  ruleId : rule.ruleId ≠ some []
  name : rule.name ≠ []
  version : rule.version ≠ []
  severity : rule.severity ≠ []
  tags : [] ∉ rule.tags
  references : [] ∉ rule.references
  requiredEvidenceQuality : [] ∉ rule.requiredEvidenceQuality
  groupBy : [] ∉ rule.groupBy
  groupBy_ne_nil : rule.groupBy ≠ []
  suppressionKey : [] ∉ rule.suppressionKey
  stages_ne_nil : rule.stages ≠ []
  stages : ∀ stage ∈ rule.stages, stage.Loaded

section Read

variable {data : Obj} {name : String}

theorem requiredString_ne_nil {s : Str} (h : requiredString data name = .ok s) : s ≠ [] := by
  unfold requiredString at h
  split at h
  · cases h
  · rename_i hne _
    cases h
    exact hne
  · cases h

theorem optionalString_ne_nil {o : Option Str} (h : optionalString data name = .ok o) :
    o ≠ some [] := by
  unfold optionalString at h
  dsimp only at h
  split at h
  · cases h
    exact Option.some_ne_none [] ∘ Eq.symm
  · cases h
  · rename_i hne _
    cases h
    exact fun heq => hne (Option.some.inj heq)
  · cases h

/-- An optional text with a default that is not empty. -/
theorem getD_ne_nil {o : Option Str} {default : Str} (h : o ≠ some []) (hdefault : default ≠ []) :
    o.getD default ≠ [] := by
  cases o with
  | none => exact hdefault
  | some s => exact fun hnil => h (congrArg some hnil)

theorem stringTuple_ne_nil {value : Value} {xs : List Str} (h : stringTuple value name = .ok xs) :
    [] ∉ xs := by
  unfold stringTuple at h
  dsimp only at h
  split at h
  · cases h
    exact List.not_mem_nil
  · intro hnil
    obtain ⟨v, -, hv⟩ := exists_of_forall₂ (mapM_eq_ok.mp h) hnil
    split at hv
    · cases hv
    · rename_i hne
      cases hv
      exact hne rfl
    · cases hv
  · cases h

theorem validatedWhere_again {value : Value} {clause : Obj} (h : validatedWhere value = .ok clause) :
    validatedWhere (.dict clause) = .ok clause := by
  unfold validatedWhere at h
  split at h
  · cases h
    rfl
  · rename_i kvs
    obtain ⟨clause', hkeys, hrest⟩ := bind_eq_ok.mp h
    obtain ⟨-, -, hclause⟩ := bind_eq_ok.mp hrest
    obtain rfl := (stringKeyedMapping_eq_ok.mp hkeys).1
    obtain rfl := Except.ok.inj hclause
    exact h
  · cases h

/-! ## Reading back -/

theorem requiredString_of_field {s : Str} (h : field data name = .str s) (hs : s ≠ []) :
    requiredString data name = .ok s := by
  unfold requiredString
  rw [h]
  cases s with
  | nil => exact absurd rfl hs
  | cons c s => rfl

theorem optionalString_of_field {o : Option Str} (h : field data name = optionalStr o)
    (ho : o ≠ some []) : optionalString data name = .ok o := by
  unfold optionalString
  rw [h]
  cases o with
  | none => rfl
  | some s =>
    cases s with
    | nil => exact absurd rfl ho
    | cons c s => rfl

theorem stringTuple_strings {xs : List Str} (h : [] ∉ xs) :
    stringTuple (strings xs) name = .ok xs := by
  refine mapM_eq_ok.mpr (List.forall₂_map_left_iff.mpr (List.forall₂_same.mpr fun s hs => ?_))
  cases s with
  | nil => exact absurd hs h
  | cons c s => rfl

theorem optionalFloat_optionalNumber (o : Option Binary64) :
    optionalFloat (optionalNumber o) name = .ok o := by
  cases o <;> rfl

end Read

theorem sequenceStageFromDict_loaded {data : Value} {stage : SequenceStage}
    (h : sequenceStageFromDict data = .ok stage) : stage.Loaded := by
  unfold sequenceStageFromDict at h
  split at h
  · obtain ⟨stageData, -, h⟩ := bind_eq_ok.mp h
    obtain ⟨clause, hclause, h⟩ := bind_eq_ok.mp h
    obtain ⟨name, hname, h⟩ := bind_eq_ok.mp h
    obtain ⟨eventType, htype, h⟩ := bind_eq_ok.mp h
    obtain rfl := Except.ok.inj h
    exact ⟨requiredString_ne_nil htype, optionalString_ne_nil hname, validatedWhere_again hclause⟩
  · cases h

/-- What the loader returns is loaded. -/
theorem sequenceRuleFromDict_loaded {data : Value} {rule : SequenceRule}
    (h : sequenceRuleFromDict data = .ok rule) : rule.Loaded := by
  unfold sequenceRuleFromDict at h
  split at h
  · obtain ⟨ruleData, -, h⟩ := bind_eq_ok.mp h
    split at h
    · rename_i item items _
      obtain ⟨ruleId, hruleId, h⟩ := bind_eq_ok.mp h
      obtain ⟨name, hname, h⟩ := bind_eq_ok.mp h
      obtain ⟨version, hversion, h⟩ := bind_eq_ok.mp h
      obtain ⟨severity, hseverity, h⟩ := bind_eq_ok.mp h
      obtain ⟨tags, htags, h⟩ := bind_eq_ok.mp h
      obtain ⟨rationale, -, h⟩ := bind_eq_ok.mp h
      obtain ⟨references, hreferences, h⟩ := bind_eq_ok.mp h
      obtain ⟨quality, hquality, h⟩ := bind_eq_ok.mp h
      obtain ⟨groupBy, hgroupBy, h⟩ := bind_eq_ok.mp h
      obtain ⟨ordered, -, h⟩ := bind_eq_ok.mp h
      obtain ⟨within, -, h⟩ := bind_eq_ok.mp h
      obtain ⟨deduplicate, -, h⟩ := bind_eq_ok.mp h
      obtain ⟨suppression, -, h⟩ := bind_eq_ok.mp h
      obtain ⟨suppressionKey, hsuppressionKey, h⟩ := bind_eq_ok.mp h
      obtain ⟨stages, hstages, h⟩ := bind_eq_ok.mp h
      obtain rfl := Except.ok.inj h
      have hread := mapM_eq_ok.mp hstages
      refine
        { ruleId := optionalString_ne_nil hruleId
          name := requiredString_ne_nil hname
          version := getD_ne_nil (optionalString_ne_nil hversion) (by decide)
          severity := getD_ne_nil (optionalString_ne_nil hseverity) (by decide)
          tags := stringTuple_ne_nil htags
          references := stringTuple_ne_nil hreferences
          requiredEvidenceQuality := stringTuple_ne_nil hquality
          groupBy := ?_
          groupBy_ne_nil := ?_
          suppressionKey := stringTuple_ne_nil hsuppressionKey
          stages_ne_nil := ?_
          stages := fun stage hstage => ?_ }
      · dsimp only
        split
        · decide
        · exact stringTuple_ne_nil hgroupBy
      · dsimp only
        split
        · exact List.cons_ne_nil _ _
        · assumption
      · intro hnil
        dsimp only at hnil
        rw [hnil] at hread
        cases hread
      · obtain ⟨item, -, hitem⟩ := exists_of_forall₂ hread hstage
        exact sequenceStageFromDict_loaded hitem
    · cases h
  · cases h

theorem sequenceStageFromDict_toDict {stage : SequenceStage} (h : stage.Loaded) :
    sequenceStageFromDict stage.toDict = .ok stage := by
  have hname : optionalString [(lit "name", optionalStr stage.name),
      (lit "event_type", .str stage.eventType), (lit "where", .dict stage.where)] "name"
      = .ok stage.name := optionalString_of_field rfl h.name
  have htype : requiredString [(lit "name", optionalStr stage.name),
      (lit "event_type", .str stage.eventType), (lit "where", .dict stage.where)] "event_type"
      = .ok stage.eventType := requiredString_of_field rfl h.eventType
  show (do
    let clause ← validatedWhere (.dict stage.where)
    let name ← optionalString _ "name"
    let eventType ← requiredString _ "event_type"
    Except.ok { eventType, «where» := clause, name : SequenceStage }) = _
  rw [h.clause, hname, htype]
  rfl

/-- The loader reads a loaded rule as it was written. -/
theorem sequenceRuleFromDict_toDict {rule : SequenceRule} (h : rule.Loaded) :
    sequenceRuleFromDict (sequenceRuleToDict rule) = .ok rule := by
  have hstages : (rule.stages.map SequenceStage.toDict).mapM sequenceStageFromDict
      = .ok rule.stages := by
    refine mapM_eq_ok.mpr (List.forall₂_map_left_iff.mpr (List.forall₂_same.mpr fun s hs => ?_))
    exact sequenceStageFromDict_toDict (h.stages s hs)
  have hcanonical : canonicalRuleMapping rule.items = .ok rule.items := rfl
  have hruleId : optionalString rule.items "rule_id" = .ok rule.ruleId :=
    optionalString_of_field rfl h.ruleId
  have hname : requiredString rule.items "name" = .ok rule.name :=
    requiredString_of_field rfl h.name
  have hversion : optionalString rule.items "version" = .ok (some rule.version) :=
    optionalString_of_field rfl fun heq => h.version (Option.some.inj heq)
  have hseverity : optionalString rule.items "severity" = .ok (some rule.severity) :=
    optionalString_of_field rfl fun heq => h.severity (Option.some.inj heq)
  have htags : stringTuple (field rule.items "tags") "tags" = .ok rule.tags :=
    stringTuple_strings h.tags
  have hrationale : optionalText rule.items "rationale" = .ok (some rule.rationale) := rfl
  have hreferences : stringTuple (field rule.items "references") "references"
      = .ok rule.references := stringTuple_strings h.references
  have hquality : stringTuple (field rule.items "required_evidence_quality")
      "required_evidence_quality" = .ok rule.requiredEvidenceQuality :=
    stringTuple_strings h.requiredEvidenceQuality
  have hgroupBy : stringTuple (field rule.items "group_by") "group_by" = .ok rule.groupBy :=
    stringTuple_strings h.groupBy
  have hordered : boolValue (field rule.items "ordered") true "ordered" = .ok rule.ordered := rfl
  have hwithin : optionalFloat (field rule.items "within_seconds") "within_seconds"
      = .ok rule.withinSeconds := optionalFloat_optionalNumber _
  have hdeduplicate : boolValue (field rule.items "deduplicate") true "deduplicate"
      = .ok rule.deduplicate := rfl
  have hsuppression : optionalFloat (field rule.items "suppression_seconds") "suppression_seconds"
      = .ok rule.suppressionSeconds := optionalFloat_optionalNumber _
  have hkey : stringTuple (field rule.items "suppression_key") "suppression_key"
      = .ok rule.suppressionKey := stringTuple_strings h.suppressionKey
  obtain ⟨stage, stages, hcons⟩ := List.exists_cons_of_ne_nil h.stages_ne_nil
  have hfield : field rule.items "stages" = .list (stage.toDict :: stages.map SequenceStage.toDict) := by
    show Value.list (rule.stages.map SequenceStage.toDict) = _
    rw [hcons, List.map_cons]
  rw [hcons, List.map_cons] at hstages
  unfold sequenceRuleToDict sequenceRuleFromDict
  simp only [hcanonical, hfield, hruleId, hname, hversion, hseverity, htags, hrationale, hreferences,
    hquality, hgroupBy, hordered, hwithin, hdeduplicate, hsuppression, hkey, hstages, bind,
    Except.bind, Option.getD_some, h.groupBy_ne_nil, if_false]
  rw [← hcons]

/-- **Detection rule round trip.** A loaded rule that is saved and loaded again is the same rule. -/
theorem rule_round_trip (data : Value) (rule : SequenceRule)
    (h : sequenceRuleFromDict data = .ok rule) :
    sequenceRuleFromDict (sequenceRuleToDict rule) = .ok rule :=
  sequenceRuleFromDict_toDict (sequenceRuleFromDict_loaded h)

/-- A package with a window in minutes and a predicate. -/
def packagedRule : Value := .dict
  [(lit "kind", .str (lit "SequenceDetection")),
   (lit "metadata", .dict [(lit "name", .str (lit "degraded"))]),
   (lit "spec", .dict
    [(lit "within", .str (lit "5m")), (lit "groupBy", .list [.str (lit "correlation.trace_id")]),
     (lit "stages", .list [.dict [(lit "eventType", .str (lit "recorder.degraded")),
       (lit "where", .dict [(lit "payload.note", .dict [(lit "prefix", .str (lit "disk"))])])]])])]

theorem rule_round_trip_sample : ∃ rule, sequenceRuleFromDict packagedRule = .ok rule ∧
    sequenceRuleFromDict (sequenceRuleToDict rule) = .ok rule := by
  obtain ⟨rule, hrule⟩ : ∃ rule, sequenceRuleFromDict packagedRule = .ok rule :=
    exists_of_isOk (by decide +kernel)
  exact ⟨rule, hrule, rule_round_trip packagedRule rule hrule⟩

end ActionLineage
