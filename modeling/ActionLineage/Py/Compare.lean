import ActionLineage.Py.Value

/-!
# Comparing Python values

Numbers are compared by value across `bool`, `int` and `float`, containers member by member. A
finite float is its signed number of units of `2⁻¹⁰⁷⁴`, so every comparison is one of integers.
-/

namespace Py

namespace Binary64

/-- A finite float in units of `2⁻¹⁰⁷⁴`. -/
def signedUnits (neg : Bool) (bits : Fin infBits) : Int :=
  if neg then -(units bits.val : Int) else units bits.val

/-- `a <= b`; a comparison with NaN is false. -/
def le : Binary64 → Binary64 → Bool
  | .nan, _ => false
  | _, .nan => false
  | .inf true, _ => true
  | _, .inf false => true
  | .finite n a, .finite m b => signedUnits n a ≤ signedUnits m b
  | _, _ => false

/-- `a < b`. -/
def lt (a b : Binary64) : Bool := le a b && !le b a

/-- `a * b`: the exact product, correctly rounded. -/
def mul : Binary64 → Binary64 → Binary64
  | .nan, _ => .nan
  | _, .nan => .nan
  | .inf n, .inf m => .inf (n != m)
  | .inf n, .finite m b => if b.val = 0 then .nan else .inf (n != m)
  | .finite n a, .inf m => if a.val = 0 then .nan else .inf (n != m)
  | .finite n a, .finite m b => .ofRatio (n != m) (units a.val * units b.val) (2 ^ 2148)

/-- `float(i)`; `none` is `OverflowError`. -/
def ofInt (i : Int) : Option Binary64 :=
  match ofRatio (i < 0) i.natAbs 1 with
  | .inf _ => none
  | x => some x

end Binary64

/-- `timedelta.total_seconds()`: microseconds over a million, correctly rounded. -/
def totalSeconds (micros : Int) : Binary64 :=
  .ofRatio (micros < 0) micros.natAbs 1000000

theorem totalSeconds_zero : totalSeconds 0 = .finite false ⟨0, by decide⟩ := by
  decide +kernel

/-- A number as an exact multiple of `2⁻¹⁰⁷⁴`. -/
def Value.exactUnits : Value → Option Int
  | .bool b => some (if b then 2 ^ 1074 else 0)
  | .int i => some (i * 2 ^ 1074)
  | .float (.finite neg bits) => some (Binary64.signedUnits neg bits)
  | _ => none

/-- `a == b` when `a` is a number: numbers are equal by value, and infinities to themselves. -/
def numberEq (a b : Value) : Bool :=
  match a.exactUnits, b.exactUnits with
  | some x, some y => x == y
  | none, none =>
    match a, b with
    | .float (.inf n), .float (.inf m) => n == m
    | _, _ => false
  | _, _ => false

mutual

/-- `a == b`. -/
def pyEq (a b : Value) : Bool :=
  match a with
  | .null =>
    match b with
    | .null => true
    | _ => false
  | .str s =>
    match b with
    | .str t => s == t
    | _ => false
  | .bytes s =>
    match b with
    | .bytes t => s == t
    | _ => false
  | .list xs =>
    match b with
    | .list ys => pyEqItems xs ys
    | _ => false
  | .dict kvs =>
    match b with
    | .dict ws => kvs.length == ws.length && pyEqMembers kvs ws
    | _ => false
  | a => numberEq a b

def pyEqItems (xs ys : List Value) : Bool :=
  match xs with
  | [] => ys.isEmpty
  | x :: xs =>
    match ys with
    | [] => false
    | y :: ys => pyEq x y && pyEqItems xs ys

/-- Each member of the first dict is a member of the second. -/
def pyEqMembers (kvs ws : Obj) : Bool :=
  match kvs with
  | [] => true
  | (k, v) :: kvs =>
    (match Obj.get? ws k with
      | some w => pyEq v w
      | none => false) && pyEqMembers kvs ws

end

end Py
