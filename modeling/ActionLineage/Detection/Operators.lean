import ActionLineage.Detection.RuleLoader
import ActionLineage.Reference

/-!
# What a mapping of operators asks

The evaluator reads one operator of a mapping, the first it finds an operand of the right kind for
(`firstTest`), and answers with its verdict (`matchesExpected_dict`). The loader looks at every
operator of the mapping of a path, but at none of a mapping under `not`. So the operators behind the
first one have no say (`conjunctive_iff`), and a mapping under `not` may be anything
(`reached_supported_iff`).
-/

namespace ActionLineage

open Py

/-! ## The deciding operator -/

/-- An operator with an operand of its kind. -/
inductive OperatorTest
  | oneOf (allowed : List Value)
  | present (expected : Bool)
  | startsWith (text : Str)
  | endsWith (text : Str)
  | search (pattern : Str)
  | negated (expected : Value)
  | compared (op : Comparison) (threshold : Value)

/-! The tests operators make of their operands; an operand of another kind makes none. -/

def listOperand : Value → Option OperatorTest
  | .list allowed => some (.oneOf allowed)
  | _ => none

def boolOperand : Value → Option OperatorTest
  | .bool expected => some (.present expected)
  | _ => none

def strOperand (test : Str → OperatorTest) : Value → Option OperatorTest
  | .str text => some (test text)
  | _ => none

def negatedOperand (operand : Value) : Option OperatorTest := some (.negated operand)

def thresholdOperand (op : Comparison) : Value → Option OperatorTest
  | .null => none
  | threshold => some (.compared op threshold)

/-- The operators in the order in which the evaluator looks for them. -/
def operatorReaders : List (Str × (Value → Option OperatorTest)) :=
  [(lit "in", listOperand), (lit "exists", boolOperand), (lit "prefix", strOperand .startsWith),
    (lit "suffix", strOperand .endsWith), (lit "regex", strOperand .search), (lit "not", negatedOperand)]
    ++ Comparison.all.map fun op => (op.text, thresholdOperand op)

def readOperator (operator : Str) (operand : Value) : Option OperatorTest :=
  (operatorReaders.lookup operator).bind fun read => read operand

/-- The first test a mapping makes, by the readers. -/
def firstOf (mapping : Obj) (readers : List (Str × (Value → Option OperatorTest))) :
    Option OperatorTest :=
  readers.findSome? fun p => (Obj.get? mapping p.1).bind p.2

/-- The test of the first operator that makes one. -/
def firstTest (mapping : Obj) : Option OperatorTest := firstOf mapping operatorReaders

/-- The verdict of one operator. -/
def OperatorTest.verdict (P : Platform) (actual : Value) : OperatorTest → Except PyError Bool
  | oneOf allowed => .ok (allowed.any fun x => pyEq actual x)
  | present expected => .ok (!Value.isNull actual == expected)
  | startsWith text => .ok (strAnd actual fun s => text.isPrefixOf s)
  | endsWith text => .ok (strAnd actual fun s => text.isSuffixOf s)
  | search pattern => safeRegexMatch P actual pattern
  | negated expected =>
    if Value.isNull actual then .ok false else (matchesExpected P actual expected).map not
  | compared op threshold => compareValues P op actual threshold

variable {P : Platform} {actual : Value} {mapping : Obj} {operator : Str} {v : Value}
  {t : OperatorTest} {read : Value → Option OperatorTest}
  {readers : List (Str × (Value → Option OperatorTest))}

theorem matchesNot_eq (P : Platform) (actual : Value) (mapping : Obj) :
    matchesNot P actual mapping = (Obj.get? mapping (lit "not")).map (matchesExpected P actual) := by
  induction mapping with
  | nil => rfl
  | cons p mapping ih =>
    obtain ⟨k, v⟩ := p
    rw [matchesNot, Obj.get?_cons]
    split
    · rfl
    · exact ih

/-! ### Reading a mapping -/

theorem firstOf_take (hget : Obj.get? mapping operator = some v) (hread : read v = some t) :
    firstOf mapping ((operator, read) :: readers) = some t := by
  rw [firstOf, List.findSome?_cons, hget, Option.bind_some]
  dsimp only
  rw [hread]

theorem firstOf_skip (h : ∀ v, Obj.get? mapping operator = some v → read v = none) :
    firstOf mapping ((operator, read) :: readers) = firstOf mapping readers := by
  have hnone : (Obj.get? mapping operator).bind read = none := by
    cases hget : Obj.get? mapping operator with
    | none => rfl
    | some v => exact h v hget
  rw [firstOf, List.findSome?_cons, hnone]
  rfl

theorem listOperand_eq_none (h : ∀ allowed, v ≠ .list allowed) : listOperand v = none := by
  unfold listOperand
  split
  · exact absurd rfl (h _)
  · rfl

theorem boolOperand_eq_none (h : ∀ expected, v ≠ .bool expected) : boolOperand v = none := by
  unfold boolOperand
  split
  · exact absurd rfl (h _)
  · rfl

theorem strOperand_eq_none {test : Str → OperatorTest} (h : ∀ text, v ≠ .str text) :
    strOperand test v = none := by
  unfold strOperand
  split
  · exact absurd rfl (h _)
  · rfl

/-- The comparisons, in their order. -/
theorem matchesThreshold_eq (P : Platform) (actual : Value) (mapping : Obj) (ops : List Comparison) :
    matchesThreshold P actual mapping ops
      = (firstOf mapping (ops.map fun op => (op.text, thresholdOperand op))).elim (.ok false)
          (OperatorTest.verdict P actual) := by
  induction ops with
  | nil => rfl
  | cons op ops ih =>
    rw [matchesThreshold, List.map_cons]
    cases hget : Obj.get? mapping op.text with
    | none =>
      rw [firstOf_skip fun v hv => by simp [hget] at hv]
      exact ih
    | some v =>
      cases v with
      | null =>
        rw [firstOf_skip fun v hv => by rw [← Option.some.inj (hget.symm.trans hv)]; rfl]
        exact ih
      | _ =>
        rw [firstOf_take hget rfl]
        rfl

/-- A mapping is judged by its first test alone. -/
theorem matchesExpected_dict (P : Platform) (actual : Value) (mapping : Obj) :
    matchesExpected P actual (.dict mapping)
      = (firstTest mapping).elim (.ok false) (OperatorTest.verdict P actual) := by
  unfold firstTest operatorReaders
  rw [matchesExpected]
  split
  · rename_i h
    rw [List.cons_append, firstOf_take h rfl]
    rfl
  · rename_i hin
    rw [List.cons_append, firstOf_skip fun v hv => listOperand_eq_none fun xs hxs => hin xs (hxs ▸ hv)]
    split
    · rename_i h
      rw [List.cons_append, firstOf_take h rfl]
      rfl
    · rename_i hexists
      rw [List.cons_append,
        firstOf_skip fun v hv => boolOperand_eq_none fun b hb => hexists b (hb ▸ hv)]
      split
      · rename_i h
        rw [List.cons_append, firstOf_take h rfl]
        rfl
      · rename_i hprefix
        rw [List.cons_append,
          firstOf_skip fun v hv => strOperand_eq_none fun s hs => hprefix s (hs ▸ hv)]
        split
        · rename_i h
          rw [List.cons_append, firstOf_take h rfl]
          rfl
        · rename_i hsuffix
          rw [List.cons_append,
            firstOf_skip fun v hv => strOperand_eq_none fun s hs => hsuffix s (hs ▸ hv)]
          split
          · rename_i h
            rw [List.cons_append, firstOf_take h rfl]
            rfl
          · rename_i hregex
            rw [List.cons_append,
              firstOf_skip fun v hv => strOperand_eq_none fun s hs => hregex s (hs ▸ hv),
              matchesNot_eq, List.cons_append, List.nil_append]
            cases hnot : Obj.get? mapping (lit "not") with
            | none =>
              rw [firstOf_skip fun v hv => by simp [hnot] at hv]
              exact matchesThreshold_eq P actual mapping Comparison.all
            | some v =>
              rw [firstOf_take hnot rfl]
              rfl

/-! ### Which operator the first test belongs to -/

theorem get?_singleton (operator name : Str) (v : Value) :
    Obj.get? [(operator, v)] name = if operator = name then some v else none := by
  rw [Obj.get?_cons, Obj.get?_nil]

theorem operatorReaders_nodup : (operatorReaders.map Prod.fst).Nodup := by
  decide +kernel

/-- A key that is not repeated leads to its reader. -/
theorem lookup_readers (hn : (readers.map Prod.fst).Nodup) :
    readers.lookup operator = some read ↔ (operator, read) ∈ readers := by
  induction readers with
  | nil => simp
  | cons r readers ih =>
    obtain ⟨name, read'⟩ := r
    obtain ⟨hnotin, hn'⟩ := List.nodup_cons.mp hn
    rw [List.lookup_cons, List.mem_cons, Prod.mk.injEq]
    by_cases hname : operator = name
    · have habsent : (operator, read) ∉ readers := fun hmem =>
        hnotin (List.mem_map.mpr ⟨_, hmem, hname⟩)
      simp [hname, hname ▸ habsent, eq_comm]
    · rw [beq_false_of_ne hname, ih hn']
      simp [hname]

theorem firstOf_singleton (operator : Str) (v : Value)
    (hn : (readers.map Prod.fst).Nodup) :
    firstOf [(operator, v)] readers = (readers.lookup operator).bind fun read => read v := by
  induction readers with
  | nil => rfl
  | cons r readers ih =>
    obtain ⟨name, read⟩ := r
    obtain ⟨hnotin, hn'⟩ := List.nodup_cons.mp hn
    rw [List.lookup_cons]
    by_cases hname : operator = name
    · subst hname
      have habsent : readers.lookup operator = none :=
        Option.eq_none_iff_forall_not_mem.mpr fun read' hread' =>
          hnotin (List.mem_map.mpr ⟨_, (lookup_readers hn').mp hread', rfl⟩)
      have hrest : firstOf [(operator, v)] readers = none := by
        rw [ih hn', habsent]
        rfl
      rw [beq_self_eq_true]
      cases hread : read v with
      | none =>
        rw [firstOf_skip fun w hw => ?_, hrest]
        · simp [hread]
        · rw [get?_singleton, if_pos rfl] at hw
          rw [← Option.some.inj hw, hread]
      | some t =>
        rw [firstOf_take (by rw [get?_singleton, if_pos rfl]) hread]
        simp [hread]
    · rw [beq_false_of_ne hname, ← ih hn']
      exact firstOf_skip fun w hw => by simp [get?_singleton, hname] at hw

theorem firstTest_singleton (operator : Str) (v : Value) :
    firstTest [(operator, v)] = readOperator operator v :=
  firstOf_singleton operator v operatorReaders_nodup

/-- The first test belongs to an operator of the mapping. -/
theorem exists_of_firstTest (hkeys : mapping.keys.Nodup) (h : firstTest mapping = some t) : ∃ p ∈ mapping, readOperator p.1 p.2 = some t := by
  obtain ⟨⟨operator, read⟩, hmem, hread⟩ := List.exists_of_findSome?_eq_some h
  obtain ⟨v, hget, hv⟩ := Option.bind_eq_some_iff.mp hread
  refine ⟨(operator, v), (Obj.get?_eq_some hkeys).mp hget, ?_⟩
  rw [readOperator, (lookup_readers operatorReaders_nodup).mpr hmem]
  exact hv

/-- A mapping without a first test has no operator that makes one. -/
theorem readOperator_eq_none (hkeys : mapping.keys.Nodup) (h : firstTest mapping = none) :
    ∀ p ∈ mapping, readOperator p.1 p.2 = none := by
  intro p hp
  rw [readOperator]
  cases hread : operatorReaders.lookup p.1 with
  | none => rfl
  | some read =>
    have hnone := List.findSome?_eq_none_iff.mp h _
      ((lookup_readers operatorReaders_nodup).mp hread)
    rw [(Obj.get?_eq_some hkeys).mpr hp] at hnone
    exact hnone

/-! ## A mapping and its operators, one by one -/

/-- The predicate holds of the value. -/
def Holds (P : Platform) (actual expected : Value) : Prop :=
  matchesExpected P actual expected = .ok true

/-- A mapping holds of a value exactly when each of its operators, taken alone, does. -/
def Conjunctive (P : Platform) (actual : Value) (mapping : Obj) : Prop :=
  Holds P actual (.dict mapping) ↔ ∀ p ∈ mapping, Holds P actual (.dict [p])

/-- The operand is of the kind the operator takes, and the value passes the test. -/
def Admits (P : Platform) (actual : Value) (p : Str × Value) : Prop :=
  ∃ t, readOperator p.1 p.2 = some t ∧ t.verdict P actual = .ok true

theorem elim_verdict_iff {t? : Option OperatorTest} :
    t?.elim (.ok false) (OperatorTest.verdict P actual) = .ok true ↔
      ∃ t, t? = some t ∧ t.verdict P actual = .ok true := by
  cases t? <;> simp

theorem holds_dict_iff :
    Holds P actual (.dict mapping) ↔ ∃ t, firstTest mapping = some t ∧ t.verdict P actual = .ok true := by
  rw [Holds, matchesExpected_dict, elim_verdict_iff]

theorem holds_singleton_iff {p : Str × Value} : Holds P actual (.dict [p]) ↔ Admits P actual p := by
  rw [holds_dict_iff, firstTest_singleton]
  rfl

/-- **Conjunction.** A mapping of operators is the conjunction of its operators exactly when the one
that is read first refuses the value or none of the others does. -/
theorem conjunctive_iff (hkeys : mapping.keys.Nodup) (hne : mapping ≠ []) :
    Conjunctive P actual mapping ↔
      ∀ t, firstTest mapping = some t → t.verdict P actual = .ok true →
        ∀ p ∈ mapping, Admits P actual p := by
  unfold Conjunctive
  rw [holds_dict_iff, forall₂_congr fun p _ => holds_singleton_iff]
  constructor
  · intro h t ht hadmits
    exact h.mp ⟨t, ht, hadmits⟩
  · intro h
    constructor
    · rintro ⟨t, ht, hadmits⟩
      exact h t ht hadmits
    · intro hall
      cases hfirst : firstTest mapping with
      | none =>
        obtain ⟨p, hp⟩ := List.exists_mem_of_ne_nil mapping hne
        obtain ⟨t, ht, -⟩ := hall p hp
        rw [readOperator_eq_none hkeys hfirst p hp] at ht
        cases ht
      | some t =>
        obtain ⟨p, hp, hread⟩ := exists_of_firstTest hkeys hfirst
        obtain ⟨t', ht', hadmits⟩ := hall p hp
        obtain rfl := Option.some.inj (hread.symm.trans ht')
        exact ⟨t, rfl, hadmits⟩

/-- The document of a rule whose only predicate looks at `size`. -/
def sizeDocument (expected : Value) : Value :=
  .dict
    [(lit "name", .str (lit "size")),
      (lit "stages", .list [.dict [(lit "event_type", .str (lit "recorder.degraded")),
        (lit "where", .dict [(lit "size", expected)])]])]

def sizeRule (expected : Value) : SequenceRule where
  name := lit "size"
  stages := [{ eventType := lit "recorder.degraded", «where» := [(lit "size", expected)] }]

/-- More than five and less than ten. -/
def sizeRange : Obj := [(lit "gt", .int 5), (lit "lt", .int 10)]

theorem conjunctive_iff_sample :
    Conjunctive .plain (.int 7) sizeRange ↔
      ∀ t, firstTest sizeRange = some t → t.verdict .plain (.int 7) = .ok true →
        ∀ p ∈ sizeRange, Admits .plain (.int 7) p :=
  conjunctive_iff (by decide +kernel) (by simp [sizeRange])

/-- Twenty is in the range: the upper bound is never read. -/
theorem upper_bound_is_not_read :
    sequenceRuleFromDict (sizeDocument (.dict sizeRange)) = .ok (sizeRule (.dict sizeRange)) ∧
      Holds .plain (.int 20) (.dict sizeRange) ∧ ¬ Conjunctive .plain (.int 20) sizeRange := by
  have hholds : Holds .plain (.int 20) (.dict sizeRange) := by
    unfold Holds
    decide +kernel
  refine ⟨rfl, hholds, fun hconj => ?_⟩
  have hupper := hconj.mp hholds (lit "lt", .int 10) (by simp [sizeRange])
  revert hupper
  unfold Holds
  decide +kernel

/-! ## The mappings the evaluator reaches -/

/-- The mappings the evaluator may come to read in a predicate. -/
inductive ReachesMapping : Value → Obj → Prop
  | here (mapping : Obj) : ReachesMapping (.dict mapping) mapping
  | negated {mapping inner : Obj} {expected : Value} :
      firstTest mapping = some (.negated expected) → ReachesMapping expected inner →
        ReachesMapping (.dict mapping) inner

/-- The mappings among them that stand under a `not`. -/
def ReachesUnderNot (predicate : Value) (inner : Obj) : Prop :=
  ∃ mapping expected, predicate = .dict mapping ∧ firstTest mapping = some (.negated expected) ∧
    ReachesMapping expected inner

/-- What `_number` or `_datetime_value` can compare. -/
def comparable (P : Platform) (operand : Value) : Bool :=
  operand matches .bool _ || operand matches .int _ || operand matches .float _
    || (datetimeValue P operand).isSome

/-- An operator by a supported name with an operand of the kind it takes. -/
inductive SupportedOperator (P : Platform) : Str → Value → Prop
  | oneOf (allowed : List Value) : SupportedOperator P (lit "in") (.list allowed)
  | present (expected : Bool) : SupportedOperator P (lit "exists") (.bool expected)
  | startsWith (text : Str) : SupportedOperator P (lit "prefix") (.str text)
  | endsWith (text : Str) : SupportedOperator P (lit "suffix") (.str text)
  | search (pattern : Str) : pattern.length ≤ 256 → SupportedOperator P (lit "regex") (.str pattern)
  | negated (expected : Value) : SupportedOperator P (lit "not") expected
  | compared (op : Comparison) (threshold : Value) :
      comparable P threshold = true → SupportedOperator P op.text threshold

/-- Every operator mapping the evaluator can reach uses supported operators only. -/
def PredicatesSupported (P : Platform) (rule : SequenceRule) : Prop :=
  ∀ stage ∈ rule.stages, ∀ p ∈ stage.where, ∀ mapping, ReachesMapping p.2 mapping →
    ∀ q ∈ mapping, SupportedOperator P q.1 q.2

/-- The thresholds of a mapping can be compared. -/
def ThresholdsComparable (P : Platform) (mapping : Obj) : Prop :=
  ∀ q ∈ mapping, q.1 ∈ Comparison.all.map Comparison.text → comparable P q.2 = true

theorem isList_iff : isList v = true ↔ ∃ allowed, v = .list allowed := by
  cases v <;> simp [isList]

theorem isBool_iff : isBool v = true ↔ ∃ expected, v = .bool expected := by
  cases v <;> simp [isBool]

theorem operatorFault_eq_none : operatorFault operator v = none ↔
    operator ∈ allowedOperators ∧ (operator = lit "in" → ∃ allowed, v = .list allowed) ∧
      (operator = lit "exists" → ∃ expected, v = .bool expected) ∧
      (operator ∈ [lit "prefix", lit "suffix", lit "regex"] →
        ∃ text, v = .str text ∧ (operator = lit "regex" → text.length ≤ 256)) := by
  rw [← isList_iff, ← isBool_iff]
  unfold operatorFault
  split
  · rename_i hname
    exact ⟨fun h => (nomatch h), fun h => absurd h.1 hname⟩
  · rename_i hname
    rw [not_not] at hname
    split
    · rename_i hin
      exact ⟨fun h => (nomatch h), fun h => absurd (h.2.1 hin.1) hin.2⟩
    · rename_i hin
      split
      · rename_i hexists
        exact ⟨fun h => (nomatch h), fun h => absurd (h.2.2.1 hexists.1) hexists.2⟩
      · rename_i hexists
        have hin' : operator = lit "in" → isList v = true := fun h => not_not.mp fun h' => hin ⟨h, h'⟩
        have hexists' : operator = lit "exists" → isBool v = true :=
          fun h => not_not.mp fun h' => hexists ⟨h, h'⟩
        split
        · rename_i htext
          split
          · rename_i text
            split
            · rename_i hlong
              refine ⟨fun h => (nomatch h), fun h => ?_⟩
              obtain ⟨text', heq, hshort⟩ := h.2.2.2 htext
              obtain rfl := Value.str.inj heq
              exact absurd (hshort hlong.1) (Nat.not_le.mpr hlong.2)
            · rename_i hshort
              refine ⟨fun _ => ⟨hname, hin', hexists', fun _ => ⟨text, rfl, fun h => ?_⟩⟩, fun _ => rfl⟩
              exact Nat.not_lt.mp fun hlong => hshort ⟨h, hlong⟩
          · rename_i hnot
            refine ⟨fun h => (nomatch h), fun h => ?_⟩
            obtain ⟨text, rfl, -⟩ := h.2.2.2 htext
            exact absurd rfl (hnot text)
        · rename_i htext
          exact ⟨fun _ => ⟨hname, hin', hexists', fun h => absurd h htext⟩, fun _ => rfl⟩

/-- The loader checks everything about an operator but the thresholds and what is under `not`. -/
theorem supportedOperator_iff : SupportedOperator P operator v ↔
    operatorFault operator v = none ∧
      (operator ∈ Comparison.all.map Comparison.text → comparable P v = true) := by
  rw [operatorFault_eq_none]
  constructor
  · intro h
    cases h with
    | oneOf allowed =>
      exact ⟨⟨by decide +kernel, fun _ => ⟨allowed, rfl⟩, fun h => absurd h (by decide +kernel),
        fun h => absurd h (by decide +kernel)⟩, fun h => absurd h (by decide +kernel)⟩
    | present expected =>
      exact ⟨⟨by decide +kernel, fun h => absurd h (by decide +kernel), fun _ => ⟨expected, rfl⟩,
        fun h => absurd h (by decide +kernel)⟩, fun h => absurd h (by decide +kernel)⟩
    | startsWith text =>
      exact ⟨⟨by decide +kernel, fun h => absurd h (by decide +kernel),
        fun h => absurd h (by decide +kernel),
        fun _ => ⟨text, rfl, fun h => absurd h (by decide +kernel)⟩⟩,
        fun h => absurd h (by decide +kernel)⟩
    | endsWith text =>
      exact ⟨⟨by decide +kernel, fun h => absurd h (by decide +kernel),
        fun h => absurd h (by decide +kernel),
        fun _ => ⟨text, rfl, fun h => absurd h (by decide +kernel)⟩⟩,
        fun h => absurd h (by decide +kernel)⟩
    | search pattern hshort =>
      exact ⟨⟨by decide +kernel, fun h => absurd h (by decide +kernel),
        fun h => absurd h (by decide +kernel), fun _ => ⟨pattern, rfl, fun _ => hshort⟩⟩,
        fun h => absurd h (by decide +kernel)⟩
    | negated expected =>
      exact ⟨⟨by decide +kernel, fun h => absurd h (by decide +kernel),
        fun h => absurd h (by decide +kernel), fun h => absurd h (by decide +kernel)⟩,
        fun h => absurd h (by decide +kernel)⟩
    | compared op threshold hcomparable =>
      have hname : op.text ∈ allowedOperators ∧ op.text ≠ lit "in" ∧ op.text ≠ lit "exists" ∧
          op.text ∉ [lit "prefix", lit "suffix", lit "regex"] := by
        cases op <;> decide +kernel
      obtain ⟨hmem, hin, hexists, htext⟩ := hname
      exact ⟨⟨hmem, fun h => absurd h hin, fun h => absurd h hexists, fun h => absurd h htext⟩,
        fun _ => hcomparable⟩
  · rintro ⟨⟨hname, hin, hexists, htext⟩, hthreshold⟩
    simp only [allowedOperators, List.mem_cons, List.not_mem_nil, or_false] at hname
    rcases hname with rfl | rfl | rfl | rfl | rfl | rfl | rfl | rfl | rfl | rfl
    · obtain ⟨allowed, rfl⟩ := hin rfl
      exact .oneOf allowed
    · obtain ⟨expected, rfl⟩ := hexists rfl
      exact .present expected
    · obtain ⟨text, rfl, -⟩ := htext (by decide +kernel)
      exact .startsWith text
    · obtain ⟨text, rfl, -⟩ := htext (by decide +kernel)
      exact .endsWith text
    · obtain ⟨pattern, rfl, hshort⟩ := htext (by decide +kernel)
      exact .search pattern (hshort rfl)
    · exact .negated v
    · exact .compared .gt v (hthreshold (by decide +kernel))
    · exact .compared .gte v (hthreshold (by decide +kernel))
    · exact .compared .lt v (hthreshold (by decide +kernel))
    · exact .compared .lte v (hthreshold (by decide +kernel))

theorem reaches_dict_iff {inner : Obj} {predicate : Value} :
    ReachesMapping predicate inner ↔ predicate = .dict inner ∨ ReachesUnderNot predicate inner := by
  constructor
  · intro h
    cases h with
    | here => exact .inl rfl
    | negated hfirst hinner => exact .inr ⟨_, _, rfl, hfirst, hinner⟩
  · rintro (rfl | ⟨mapping, expected, rfl, hfirst, hinner⟩)
    · exact .here inner
    · exact .negated hfirst hinner

theorem supported_of_validated {inner : Obj} (hvalid : validatePredicate (.dict inner) = .ok ())
    (hthresholds : ThresholdsComparable P inner) :
    ∀ q ∈ inner, SupportedOperator P q.1 q.2 := fun q hq =>
  supportedOperator_iff.mpr ⟨(validatePredicate_dict.mp hvalid q hq).2, hthresholds q hq⟩

/-- **Supported predicates.** The operator mappings that the evaluator can reach in an accepted rule
are supported exactly when those under a `not` would pass the check of the loader as well and the
thresholds of all of them can be compared. -/
theorem reached_supported_iff {P : Platform} {data : Value} {rule : SequenceRule}
    (h : sequenceRuleFromDict data = .ok rule) :
    PredicatesSupported P rule ↔
      ∀ stage ∈ rule.stages, ∀ p ∈ stage.where,
        (∀ inner, ReachesUnderNot p.2 inner → validatePredicate (.dict inner) = .ok ()) ∧
          ∀ mapping, ReachesMapping p.2 mapping → ThresholdsComparable P mapping := by
  constructor
  · intro hsupported stage hstage p hp
    have hmapping : ∀ mapping, ReachesMapping p.2 mapping → ∀ q ∈ mapping,
        operatorFault q.1 q.2 = none ∧
          (q.1 ∈ Comparison.all.map Comparison.text → comparable P q.2 = true) :=
      fun mapping hreach q hq =>
        supportedOperator_iff.mp (hsupported stage hstage p hp mapping hreach q hq)
    refine ⟨fun inner hinner => validatePredicate_dict.mpr fun q hq => ?_,
      fun mapping hreach q hq => (hmapping mapping hreach q hq).2⟩
    have hfault := (hmapping inner (reaches_dict_iff.mpr (.inr hinner)) q hq).1
    refine ⟨fun hempty => ?_, hfault⟩
    rw [hempty] at hfault
    exact absurd (operatorFault_eq_none.mp hfault).1 (by decide +kernel)
  · intro hchecked stage hstage p hp mapping hreach
    obtain ⟨hunder, hthresholds⟩ := hchecked stage hstage p hp
    refine supported_of_validated ?_ (hthresholds mapping hreach)
    rcases reaches_dict_iff.mp hreach with heq | hinner
    · rw [← heq]
      exact where_validated h stage hstage p hp
    · exact hunder mapping hinner

/-- Not a size that contains noise; there is no operator `contains`. -/
def quietSize : Value := .dict [(lit "not", .dict [(lit "contains", .str (lit "noise"))])]

theorem reached_supported_iff_sample :
    PredicatesSupported .plain (sizeRule (.dict sizeRange)) ↔
      ∀ stage ∈ (sizeRule (.dict sizeRange)).stages, ∀ p ∈ stage.where,
        (∀ inner, ReachesUnderNot p.2 inner → validatePredicate (.dict inner) = .ok ()) ∧
          ∀ mapping, ReachesMapping p.2 mapping → ThresholdsComparable .plain mapping :=
  @reached_supported_iff _ (sizeDocument (.dict sizeRange)) _ rfl

/-- The unknown operator is accepted, and the predicate holds of every size there is. -/
theorem unknown_operator_under_not :
    sequenceRuleFromDict (sizeDocument quietSize) = .ok (sizeRule quietSize) ∧
      ¬ PredicatesSupported .plain (sizeRule quietSize) ∧
      ∀ actual, Value.isNull actual = false → Holds .plain actual quietSize := by
  refine ⟨rfl, fun hsupported => ?_, fun actual hactual => ?_⟩
  · have hinner := hsupported _ (List.mem_singleton_self _) _ (List.mem_singleton_self _)
      [(lit "contains", .str (lit "noise"))] (.negated rfl (.here _)) _ (List.mem_singleton_self _)
    exact absurd (supportedOperator_iff.mp hinner).1 (by decide +kernel)
  · rw [quietSize, holds_dict_iff]
    refine ⟨.negated (.dict [(lit "contains", .str (lit "noise"))]), rfl, ?_⟩
    rw [OperatorTest.verdict, hactual, matchesExpected_dict]
    rfl

end ActionLineage
