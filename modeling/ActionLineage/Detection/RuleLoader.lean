import ActionLineage.Detection.Predicates

/-!
# Loading a detection rule

`sequence_rule_from_dict` takes a rule in one of two shapes: the fields of a rule as they are, or a
package whose `metadata` and `spec` spell them in several ways and give durations with units. The
predicates of every stage are checked one mapping deep (`validatePredicate`).
-/

namespace ActionLineage

open Py

/-! ## Fields -/

/-- `data.get(field)`. -/
def field (data : Obj) (name : String) : Value := (Obj.get? data (lit name)).getD .null

/-- `_first_field`: the first mapping that has one of the names. -/
def firstField (mappings : List Obj) (names : List String) : Value :=
  ((mappings.findSome? fun m => names.findSome? fun n => Obj.get? m (lit n))).getD .null

/-- `_string_keyed_mapping`. -/
def stringKeyedMapping (data : Obj) (what : String) : Except PyError Obj :=
  if data.all fun p => p.1 != [] then .ok data
  else .error (.detectionRuleLoadError (what ++ " keys must be non-empty strings"))

/-- `_required_string`. -/
def requiredString (data : Obj) (name : String) : Except PyError Str :=
  match field data name with
  | .str [] => .error (.detectionRuleLoadError ("sequence rule field is required: " ++ name))
  | .str s => .ok s
  | _ => .error (.detectionRuleLoadError ("sequence rule field is required: " ++ name))

/-- `_optional_string`. -/
def optionalString (data : Obj) (name : String) : Except PyError (Option Str) :=
  let refused : PyError :=
    .detectionRuleLoadError ("sequence rule field must be a non-empty string: " ++ name)
  match field data name with
  | .null => .ok none
  | .str [] => .error refused
  | .str s => .ok (some s)
  | _ => .error refused

/-- `_optional_text`. -/
def optionalText (data : Obj) (name : String) : Except PyError (Option Str) :=
  match field data name with
  | .null => .ok none
  | .str s => .ok (some s)
  | _ => .error (.detectionRuleLoadError ("sequence rule field must be text: " ++ name))

/-- `_string_tuple`. -/
def stringTuple (value : Value) (name : String) : Except PyError (List Str) :=
  let refused : PyError :=
    .detectionRuleLoadError ("sequence rule field must be an array of strings: " ++ name)
  match value with
  | .null => .ok []
  | .list xs =>
    xs.mapM fun
      | .str [] => .error refused
      | .str s => .ok s
      | _ => .error refused
  | _ => .error refused

/-- `_bool_value`. -/
def boolValue (value : Value) (default : Bool) (name : String) : Except PyError Bool :=
  match value with
  | .null => .ok default
  | .bool b => .ok b
  | _ => .error (.detectionRuleLoadError ("sequence rule field must be boolean: " ++ name))

/-- `float(i)`. -/
def floatOfInt (i : Int) : Except PyError Binary64 :=
  (Binary64.ofInt i).elim (.error (.overflowError "int too large to convert to float")) .ok

/-- `_optional_float`. -/
def optionalFloat (value : Value) (name : String) : Except PyError (Option Binary64) :=
  match value with
  | .null => .ok none
  | .int i => do .ok (some (← floatOfInt i))
  | .float x => .ok (some x)
  | _ => .error (.detectionRuleLoadError ("sequence rule field must be numeric: " ++ name))

/-! ## Durations -/

/-- `str.isspace` of one character. -/
def isWhitespace (c : CodePoint) : Bool :=
  (9 ≤ c.val && c.val ≤ 13) || (28 ≤ c.val && c.val ≤ 32) || c.val == 0x85 || c.val == 0xA0
    || c.val == 0x1680 || (0x2000 ≤ c.val && c.val ≤ 0x200A) || c.val == 0x2028 || c.val == 0x2029
    || c.val == 0x202F || c.val == 0x205F || c.val == 0x3000

/-- `str.strip()`. -/
def strip (s : Str) : Str :=
  ((s.dropWhile isWhitespace).reverse.dropWhile isWhitespace).reverse

/-- The multiplier of a unit. -/
def unitSeconds (unit : Str) : Option Binary64 :=
  if unit = lit "ms" then some (.ofDecimal false 1 (-3))
  else if unit = [] ∨ unit = lit "s" then some (.ofDecimal false 1 0)
  else if unit = lit "m" then some (.ofDecimal false 60 0)
  else if unit = lit "h" then some (.ofDecimal false 3600 0)
  else none

/-- The amount and the unit of `([0-9]+(?:\.[0-9]+)?)(ms|s|m|h)?` matching the whole text. -/
def parseDuration (s : Str) : Option (Binary64 × Binary64) :=
  let whole := s.takeWhile isDigit
  let rest := s.dropWhile isDigit
  if whole = [] then none
  else
    match rest with
    | c :: tail =>
      if c = cp '.' then
        let fraction := tail.takeWhile isDigit
        if fraction = [] then none
        else
          (unitSeconds (tail.dropWhile isDigit)).map fun unit =>
            (.ofDecimal false (readNat (whole ++ fraction)) (-fraction.length), unit)
      else (unitSeconds rest).map fun unit => (.ofDecimal false (readNat whole) 0, unit)
    | [] => (unitSeconds []).map fun unit => (.ofDecimal false (readNat whole) 0, unit)

/-- `_duration_seconds`; a field that is set and not a number is read as text with a unit. -/
def durationSeconds (value : Value) (name : String) : Except PyError Value :=
  let refused : PyError :=
    .detectionRuleLoadError ("sequence rule duration field is invalid: " ++ name)
  match value with
  | .null => .ok .null
  | .int i => do .ok (.float (← floatOfInt i))
  | .float x => .ok (.float x)
  | .str s =>
    match parseDuration (strip s) with
    | none => .error refused
    | some (amount, unit) => .ok (.float (amount.mul unit))
  | _ => .error refused

/-! ## Predicates -/

def allowedOperators : List Str :=
  [lit "in", lit "exists", lit "prefix", lit "suffix", lit "regex", lit "not", lit "gt", lit "gte",
    lit "lt", lit "lte"]

def isList : Value → Bool
  | .list _ => true
  | _ => false

def isBool : Value → Bool
  | .bool _ => true
  | _ => false

/-- What is wrong with an operator of a predicate. -/
def operatorFault (operator : Str) (value : Value) : Option String :=
  if operator ∉ allowedOperators then some "sequence stage predicate has unsupported operator"
  else if operator = lit "in" ∧ ¬ isList value then
    some "sequence stage predicate in operator must use an array"
  else if operator = lit "exists" ∧ ¬ isBool value then
    some "sequence stage predicate exists operator must be boolean"
  else if operator ∈ [lit "prefix", lit "suffix", lit "regex"] then
    match value with
    | .str s =>
      if operator = lit "regex" ∧ 256 < s.length then
        some "sequence stage predicate regex operator is too long"
      else none
    | _ => some "sequence stage predicate string operator is invalid"
  else none

/-- The loop over the operators of a predicate. -/
def validateOperators : Obj → Except PyError Unit
  | [] => .ok ()
  | (operator, value) :: operators =>
    match operatorFault operator value with
    | some message => .error (.detectionRuleLoadError message)
    | none => validateOperators operators

/-- `_validate_predicate`. -/
def validatePredicate : Value → Except PyError Unit
  | .dict expected => do
    let operators ← stringKeyedMapping expected "sequence stage predicate"
    validateOperators operators
  | _ => .ok ()

/-- The loop over the paths of a clause. -/
def validatePredicates : Obj → Except PyError Unit
  | [] => .ok ()
  | (_, expected) :: rest => do
    validatePredicate expected
    validatePredicates rest

/-- `_validated_where`. -/
def validatedWhere (value : Value) : Except PyError Obj :=
  match value with
  | .null => .ok []
  | .dict kvs => do
    let clause ← stringKeyedMapping kvs "sequence stage where"
    validatePredicates clause
    .ok clause
  | _ => .error (.detectionRuleLoadError "sequence stage where must be an object")

/-! ## Rules -/

/-- `_sequence_stage_from_dict`. -/
def sequenceStageFromDict (data : Value) : Except PyError SequenceStage :=
  match data with
  | .dict kvs => do
    let stageData ← stringKeyedMapping kvs "sequence stage"
    let clause ← validatedWhere ((Obj.get? stageData (lit "where")).getD (.dict []))
    let name ← optionalString stageData "name"
    let eventType ← requiredString stageData "event_type"
    .ok { eventType, «where» := clause, name }
  | _ => .error (.detectionRuleLoadError "sequence stage must be an object")

/-- `_package_stage_mapping`. -/
def packageStageMapping (data : Value) : Except PyError Value :=
  match data with
  | .dict kvs => do
    let stageData ← stringKeyedMapping kvs "rule package stage"
    .ok (.dict
      [(lit "name", field stageData "name"),
        (lit "event_type", firstField [stageData] ["event_type", "eventType"]),
        (lit "where", (Obj.get? stageData (lit "where")).getD (.dict []))])
  | _ => .error (.detectionRuleLoadError "rule package stage must be an object")

/-- The `metadata` of a package; absent and `None` are empty. -/
def packageMetadata (data : Obj) : Except PyError Obj :=
  match field data "metadata" with
  | .null => .ok []
  | .dict metadata => .ok metadata
  | _ => .error (.detectionRuleLoadError "rule package metadata must be an object")

/-- `_package_rule_mapping`. -/
def packageRuleMapping (data : Obj) : Except PyError Obj := do
  let isSequence := match field data "kind" with
    | .str kind => kind == lit "SequenceDetection"
    | _ => false
  if isSequence then
    match field data "spec" with
    | .dict spec => do
      let metadata ← packageMetadata data
      let specData ← stringKeyedMapping spec "rule package spec"
      let metadataData ← stringKeyedMapping metadata "rule package metadata"
      match field specData "stages" with
      | .list stages => do
        let within ← durationSeconds
          (firstField [specData] ["within_seconds", "withinSeconds", "within"]) "within"
        let suppression ← durationSeconds
          (firstField [specData] ["suppression_seconds", "suppressionSeconds"]) "suppression_seconds"
        let stageMappings ← stages.mapM packageStageMapping
        .ok
          [(lit "rule_id", firstField [metadataData, specData] ["rule_id", "ruleId", "id"]),
            (lit "name", firstField [metadataData, specData] ["name"]),
            (lit "version", firstField [metadataData, specData] ["version"]),
            (lit "severity", firstField [specData] ["severity"]),
            (lit "tags", firstField [specData, metadataData] ["tags"]),
            (lit "rationale", firstField [specData] ["rationale"]),
            (lit "references", firstField [specData] ["references"]),
            (lit "required_evidence_quality",
              firstField [specData] ["required_evidence_quality", "requiredEvidenceQuality"]),
            (lit "group_by", firstField [specData] ["group_by", "groupBy"]),
            (lit "ordered", firstField [specData] ["ordered"]),
            (lit "within_seconds", within),
            (lit "deduplicate", firstField [specData] ["deduplicate"]),
            (lit "suppression_seconds", suppression),
            (lit "suppression_key", firstField [specData] ["suppression_key", "suppressionKey"]),
            (lit "stages", .list stageMappings)]
      | _ => .error (.detectionRuleLoadError "rule package spec.stages must be an array")
    | _ => .error (.detectionRuleLoadError "rule package spec must be an object")
  else .error (.detectionRuleLoadError "rule package kind must be SequenceDetection")

/-- `_canonical_rule_mapping`. -/
def canonicalRuleMapping (data : Obj) : Except PyError Obj :=
  let isSequence := match field data "kind" with
    | .str kind => kind == lit "SequenceDetection"
    | _ => false
  if isSequence || (Obj.get? data (lit "spec")).isSome then packageRuleMapping data
  else stringKeyedMapping data "sequence rule"

/-- `sequence_rule_from_dict`. -/
def sequenceRuleFromDict (data : Value) : Except PyError SequenceRule :=
  match data with
  | .dict kvs => do
    let ruleData ← canonicalRuleMapping kvs
    match field ruleData "stages" with
    | .list (stage :: stages) => do
      let ruleId ← optionalString ruleData "rule_id"
      let name ← requiredString ruleData "name"
      let version ← optionalString ruleData "version"
      let severity ← optionalString ruleData "severity"
      let tags ← stringTuple (field ruleData "tags") "tags"
      let rationale ← optionalText ruleData "rationale"
      let references ← stringTuple (field ruleData "references") "references"
      let requiredEvidenceQuality ←
        stringTuple (field ruleData "required_evidence_quality") "required_evidence_quality"
      let groupBy ← stringTuple (field ruleData "group_by") "group_by"
      let ordered ← boolValue (field ruleData "ordered") true "ordered"
      let withinSeconds ← optionalFloat (field ruleData "within_seconds") "within_seconds"
      let deduplicate ← boolValue (field ruleData "deduplicate") true "deduplicate"
      let suppressionSeconds ←
        optionalFloat (field ruleData "suppression_seconds") "suppression_seconds"
      let suppressionKey ← stringTuple (field ruleData "suppression_key") "suppression_key"
      let stages ← (stage :: stages).mapM sequenceStageFromDict
      .ok
        { name, stages, ruleId, version := version.getD (lit "1")
          severity := severity.getD (lit "medium"), tags, rationale := rationale.getD []
          references, requiredEvidenceQuality
          groupBy := if groupBy = [] then [lit "correlation.run_id"] else groupBy
          ordered, withinSeconds, deduplicate, suppressionSeconds, suppressionKey }
    | _ => .error (.detectionRuleLoadError "sequence rule must include at least one stage")
  | _ => .error (.detectionRuleLoadError "sequence rule must be an object")

/-! ## What an accepted rule went through -/

theorem stringKeyedMapping_eq_ok {data result : Obj} {what : String} :
    stringKeyedMapping data what = .ok result ↔ result = data ∧ ∀ p ∈ data, p.1 ≠ [] := by
  unfold stringKeyedMapping
  split
  · rename_i hall
    simp only [List.all_eq_true, bne_iff_ne] at hall
    simp only [Except.ok.injEq]
    exact ⟨fun h => ⟨h.symm, hall⟩, fun h => h.1.symm⟩
  · rename_i hall
    simp only [List.all_eq_true, bne_iff_ne] at hall
    exact ⟨fun h => (nomatch h), fun h => absurd h.2 hall⟩

theorem validateOperators_eq_ok {operators : Obj} :
    validateOperators operators = .ok () ↔ ∀ p ∈ operators, operatorFault p.1 p.2 = none := by
  induction operators with
  | nil => simp [validateOperators]
  | cons p operators ih =>
    obtain ⟨operator, value⟩ := p
    rw [validateOperators, List.forall_mem_cons]
    cases hfault : operatorFault operator value with
    | some message => simp
    | none =>
      rw [← ih]
      simp

theorem validatePredicate_dict {mapping : Obj} : validatePredicate (.dict mapping) = .ok () ↔
    ∀ p ∈ mapping, p.1 ≠ [] ∧ operatorFault p.1 p.2 = none := by
  rw [validatePredicate, bind_eq_ok, forall₂_and]
  simp only [stringKeyedMapping_eq_ok]
  constructor
  · rintro ⟨operators, ⟨rfl, hnames⟩, h⟩
    exact ⟨hnames, validateOperators_eq_ok.mp h⟩
  · rintro ⟨hnames, h⟩
    exact ⟨mapping, ⟨rfl, hnames⟩, validateOperators_eq_ok.mpr h⟩

theorem validatePredicates_eq_ok {clause : Obj} (h : validatePredicates clause = .ok ()) :
    ∀ p ∈ clause, validatePredicate p.2 = .ok () := by
  induction clause with
  | nil => simp
  | cons p clause ih =>
    obtain ⟨_, hp, hrest⟩ := bind_eq_ok.mp h
    exact List.forall_mem_cons.mpr ⟨hp, ih hrest⟩

theorem validatedWhere_eq_ok {value : Value} {clause : Obj} (h : validatedWhere value = .ok clause) :
    ∀ p ∈ clause, validatePredicate p.2 = .ok () := by
  unfold validatedWhere at h
  split at h
  · obtain rfl := Except.ok.inj h
    simp
  · obtain ⟨clause', -, h⟩ := bind_eq_ok.mp h
    obtain ⟨_, hvalid, h⟩ := bind_eq_ok.mp h
    obtain rfl := Except.ok.inj h
    exact validatePredicates_eq_ok hvalid
  · cases h

theorem sequenceStageFromDict_eq_ok {data : Value} {stage : SequenceStage}
    (h : sequenceStageFromDict data = .ok stage) :
    ∀ p ∈ stage.where, validatePredicate p.2 = .ok () := by
  unfold sequenceStageFromDict at h
  split at h
  · obtain ⟨stageData, -, h⟩ := bind_eq_ok.mp h
    obtain ⟨clause, hclause, h⟩ := bind_eq_ok.mp h
    obtain ⟨name, -, h⟩ := bind_eq_ok.mp h
    obtain ⟨eventType, -, h⟩ := bind_eq_ok.mp h
    obtain rfl := Except.ok.inj h
    exact validatedWhere_eq_ok hclause
  · cases h

/-- The stages of an accepted rule were read one by one, whatever the shape of the document. -/
theorem sequenceRuleFromDict_stages {data : Value} {rule : SequenceRule}
    (h : sequenceRuleFromDict data = .ok rule) :
    ∃ items, items ≠ [] ∧ List.Forall₂ (fun item stage => sequenceStageFromDict item = .ok stage)
      items rule.stages := by
  unfold sequenceRuleFromDict at h
  split at h
  · obtain ⟨ruleData, -, h⟩ := bind_eq_ok.mp h
    split at h
    · rename_i item items _
      -- the other fields say nothing about the stages
      iterate 14 obtain ⟨_, -, h⟩ := bind_eq_ok.mp h
      obtain ⟨stages, hstages, h⟩ := bind_eq_ok.mp h
      obtain rfl := Except.ok.inj h
      exact ⟨item :: items, List.cons_ne_nil _ _, mapM_eq_ok.mp hstages⟩
    · cases h
  · cases h

theorem stages_ne_nil {data : Value} {rule : SequenceRule}
    (h : sequenceRuleFromDict data = .ok rule) : rule.stages ≠ [] := by
  obtain ⟨items, hne, hstages⟩ := sequenceRuleFromDict_stages h
  intro hnil
  rw [hnil] at hstages
  cases hstages
  exact hne rfl

/-- Every predicate of an accepted rule has passed `_validate_predicate`. -/
theorem where_validated {data : Value} {rule : SequenceRule}
    (h : sequenceRuleFromDict data = .ok rule) :
    ∀ stage ∈ rule.stages, ∀ p ∈ stage.where, validatePredicate p.2 = .ok () := by
  intro stage hstage
  obtain ⟨items, -, hstages⟩ := sequenceRuleFromDict_stages h
  obtain ⟨item, -, hitem⟩ := exists_of_forall₂ hstages hstage
  exact sequenceStageFromDict_eq_ok hitem

end ActionLineage
