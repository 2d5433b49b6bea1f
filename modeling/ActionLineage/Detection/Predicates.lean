import ActionLineage.Domain.Serialization
import ActionLineage.Py.Compare
import ActionLineage.Py.Repr

/-!
# Detection rules — paths and stage predicates

A stage asks for an event type and, path by path, for a value of the event object. A predicate can
raise: a number too large for a float, a timestamp without offset compared with one that has an
offset, an index or text past the digit limit, or whatever the regular expression engine raises
besides `re.error`. The results are therefore `Except`, evaluated in the order of the source.
-/

namespace ActionLineage

open Py

/-- One ordered event stage in a detection rule. -/
structure SequenceStage where
  eventType : Str
  «where» : Obj
  name : Option Str := none

/-- Versioned sequence detection rule. -/
structure SequenceRule where
  name : Str
  stages : List SequenceStage
  ruleId : Option Str := none
  version : Str := lit "1"
  severity : Str := lit "medium"
  tags : List Str := []
  rationale : Str := []
  references : List Str := []
  requiredEvidenceQuality : List Str := []
  groupBy : List Str := [lit "correlation.run_id"]
  ordered : Bool := true
  withinSeconds : Option Binary64 := none
  deduplicate : Bool := true
  suppressionSeconds : Option Binary64 := none
  suppressionKey : List Str := []

def digitLimit : PyError :=
  .valueError "Exceeds the limit (4300 digits) for integer string conversion"

section Predicates

variable (P : Platform)

/-! ## Paths -/

/-- The value of a decimal digit of any script. -/
def decimalValue (c : CodePoint) : Option Nat :=
  if c.val < 128 then (if isDigit c then some (digitVal c) else none) else P.decimalBeyondAscii c

/-- `str.isdecimal`. -/
def isDecimal (s : Str) : Bool := s != [] && s.all fun c => (decimalValue P c).isSome

/-- `int(part)` of decimal text. -/
def intOfDecimal (s : Str) : Except PyError Nat :=
  if maxIntDigits < s.length then .error digitLimit
  else .ok (s.foldl (fun n c => 10 * n + (decimalValue P c).getD 0) 0)

/-- `_get_path` on the parts of the path; a missing member is `None`. -/
def getPath (current : Value) : List Str → Except PyError Value
  | [] => .ok current
  | part :: parts =>
    match current with
    | .dict kvs => getPath ((Obj.get? kvs part).getD .null) parts
    | .list xs =>
      if isDecimal P part then do
        let index ← intOfDecimal P part
        match xs[index]? with
        | some x => getPath x parts
        | none => .ok .null
      else .ok .null
    | _ => .ok .null

def splitPath (path : Str) : List Str := path.splitOn (cp '.')

/-- `_path_value`: the path itself, then the path below `payload`. -/
def pathValue (eventObject : Obj) (path : Str) : Except PyError Value := do
  match ← getPath P (.dict eventObject) (splitPath path) with
  | .null => getPath P (.dict eventObject) (splitPath (lit "payload." ++ path))
  | value => .ok value

/-! ## Comparisons -/

inductive Comparison
  | gt | gte | lt | lte
deriving DecidableEq

namespace Comparison

def text : Comparison → Str
  | gt => lit "gt"
  | gte => lit "gte"
  | lt => lit "lt"
  | lte => lit "lte"

def all : List Comparison := [gt, gte, lt, lte]

/-- `_compare_numbers`. -/
def numbers (op : Comparison) (actual expected : Binary64) : Bool :=
  match op with
  | gt => expected.lt actual
  | gte => expected.le actual
  | lt => actual.lt expected
  | lte => actual.le expected

def instants (op : Comparison) (actual expected : Int) : Bool :=
  match op with
  | gt => expected < actual
  | gte => expected ≤ actual
  | lt => actual < expected
  | lte => actual ≤ expected

/-- `_compare_datetimes`, on local fields and offset. -/
def datetimes (op : Comparison) (actual expected : DateTime × Option Int) : Except PyError Bool :=
  match actual.2, expected.2 with
  | some a, some e =>
    .ok (op.instants (actual.1.toMicros - a * 1000000) (expected.1.toMicros - e * 1000000))
  | none, none => .ok (op.instants actual.1.toMicros expected.1.toMicros)
  | _, _ => .error (.typeError "can't compare offset-naive and offset-aware datetimes")

end Comparison

/-- `_number`; `None` for what is not a number. -/
def number (v : Value) : Except PyError (Option Binary64) :=
  let ofInt (i : Int) : Except PyError (Option Binary64) :=
    match Binary64.ofInt i with
    | some x => .ok (some x)
    | none => .error (.overflowError "int too large to convert to float")
  match v with
  | .bool b => ofInt (if b then 1 else 0)
  | .int i => ofInt i
  | .float x => .ok (some x)
  | _ => .ok none

/-- `_datetime_value`. -/
def datetimeValue (v : Value) : Option (DateTime × Option Int) :=
  match v with
  | .str s =>
    P.fromIsoFormat (if lit "Z" <:+ s then s.dropLast ++ lit "+00:00" else s)
  | _ => none

/-- `_compare`. -/
def compareValues (op : Comparison) (actual expected : Value) : Except PyError Bool := do
  let actualNumber ← number actual
  let expectedNumber ← number expected
  match actualNumber, expectedNumber with
  | some a, some e => .ok (op.numbers a e)
  | _, _ =>
    match datetimeValue P actual, datetimeValue P expected with
    | some a, some e => op.datetimes a e
    | _, _ => .ok false

/-! ## Predicates -/

/-- `_safe_regex_match`. -/
def safeRegexMatch (actual : Value) (pattern : Str) : Except PyError Bool :=
  match actual with
  | .str s =>
    if 256 < pattern.length ∨ 4096 < s.length then .ok false
    else
      match P.reSearch pattern s with
      | .found => .ok true
      | .absent => .ok false
      | .malformed => .ok false
      | .raised exc => .error exc
  | _ => .ok false

/-- The comparison operators, tried in their order; a threshold of `None` counts as absent. -/
def matchesThreshold (actual : Value) (expected : Obj) : List Comparison → Except PyError Bool
  | [] => .ok false
  | op :: ops =>
    match (Obj.get? expected op.text).getD .null with
    | .null => matchesThreshold actual expected ops
    | threshold => compareValues P op actual threshold

def Value.isNull : Value → Bool
  | .null => true
  | _ => false

/-- A `str` that satisfies a test. -/
def strAnd (v : Value) (test : Str → Bool) : Bool :=
  match v with
  | .str s => test s
  | _ => false

mutual

/-- `_matches_expected`: of a mapping of operators, the first one in the order below decides. -/
def matchesExpected (actual : Value) : Value → Except PyError Bool
  | .dict expected =>
    if let some (.list allowed) := Obj.get? expected (lit "in") then
      .ok (allowed.any fun x => pyEq actual x)
    else if let some (.bool present) := Obj.get? expected (lit "exists") then
      .ok (!Value.isNull actual == present)
    else if let some (.str text) := Obj.get? expected (lit "prefix") then
      .ok (strAnd actual fun s => text.isPrefixOf s)
    else if let some (.str text) := Obj.get? expected (lit "suffix") then
      .ok (strAnd actual fun s => text.isSuffixOf s)
    else if let some (.str pattern) := Obj.get? expected (lit "regex") then
      safeRegexMatch P actual pattern
    else if let some negated := matchesNot actual expected then
      if Value.isNull actual then .ok false else negated.map not
    else matchesThreshold P actual expected Comparison.all
  | expected => .ok (pyEq actual expected)

/-- The verdict of the predicate under `not`, when there is one. -/
def matchesNot (actual : Value) : Obj → Option (Except PyError Bool)
  | [] => none
  | (k, v) :: kvs => if k = lit "not" then some (matchesExpected actual v) else matchesNot actual kvs

end

/-- The `where` clause, path by path. -/
def whereHolds (eventObject : Obj) : Obj → Except PyError Bool
  | [] => .ok true
  | (path, expected) :: rest => do
    let actual ← pathValue P eventObject path
    if ← matchesExpected P actual expected then whereHolds eventObject rest else .ok false

/-- `_event_matches_stage`. -/
def eventMatchesStage (event : EventEnvelope) (stage : SequenceStage) : Except PyError Bool := do
  if event.eventType.val ≠ stage.eventType then .ok false
  else whereHolds P (← eventToDict P event) stage.where

end Predicates

end ActionLineage
