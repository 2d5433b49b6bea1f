import ActionLineage.Py.JsonDumps

/-!
# Truth, `repr` and `str` of Python values

`repr` writes containers with `repr` of their members and keeps printable characters; which
characters beyond ASCII are printable is a Unicode table, the parameter `printable`. The digit limit
of `str(int)` is the one error.
-/

namespace Py

/-- `bool(value)`. -/
def Value.truthy : Value → Bool
  | .null => false
  | .bool b => b
  | .int i => i != 0
  | .float (.finite _ bits) => bits.val != 0
  | .float _ => true
  | .str s => s != []
  | .bytes b => b != []
  | .list xs => !xs.isEmpty
  | .dict kvs => !kvs.isEmpty

/-- `n` in `k` hexadecimal digits. -/
def hexDigits : Nat → Nat → Str
  | 0, _ => []
  | k + 1, n => hexDigits k (n / 16) ++ [hexDigit n]

/-- `repr` prefers single quotes. -/
def quoteMark (s : Str) : CodePoint :=
  if s.contains (cp '\'') && !s.contains (cp '"') then cp '"' else cp '\''

def reprChar (printable : CodePoint → Bool) (mark c : CodePoint) : Str :=
  if c = mark ∨ c = cp '\\' then [cp '\\', c]
  else if c.val = 9 then lit "\\t"
  else if c.val = 10 then lit "\\n"
  else if c.val = 13 then lit "\\r"
  else if c.val < 0x20 ∨ c.val = 0x7F then lit "\\x" ++ hexDigits 2 c.val
  else if c.val < 0x7F ∨ printable c then [c]
  else if c.val < 0x100 then lit "\\x" ++ hexDigits 2 c.val
  else if c.val < 0x10000 then lit "\\u" ++ hexDigits 4 c.val
  else lit "\\U" ++ hexDigits 8 c.val

def reprStr (printable : CodePoint → Bool) (s : Str) : Str :=
  quoteMark s :: (s.flatMap (reprChar printable (quoteMark s)) ++ [quoteMark s])

/-- Bytes are written like ASCII text; nothing beyond is printable. -/
def reprBytes (b : Bytes) : Str :=
  cp 'b' :: reprStr (fun _ => false) (b.map fun x => ⟨x.val, byte_lt x⟩)

def reprFloat : Binary64 → Str
  | .finite neg bits => (floatText neg bits).render
  | .inf false => lit "inf"
  | .inf true => lit "-inf"
  | .nan => lit "nan"

/-- `", ".join(parts)`. -/
def joinCommaSpace : List Str → Str
  | [] => []
  | t :: ts => t ++ ts.flatMap fun t => lit ", " ++ t

mutual

/-- `repr(value)`; `none` is the digit limit. -/
def reprValue (printable : CodePoint → Bool) : Value → Option Str
  | .null => some (lit "None")
  | .bool b => some (if b then lit "True" else lit "False")
  | .int i => if maxIntDigits < (natText i.natAbs).length then none else some (intText i).render
  | .float x => some (reprFloat x)
  | .str s => some (reprStr printable s)
  | .bytes b => some (reprBytes b)
  | .list xs => do some (cp '[' :: joinCommaSpace (← reprItems printable xs) ++ [cp ']'])
  | .dict kvs => do some (cp '\x7b' :: joinCommaSpace (← reprMembers printable kvs) ++ [cp '\x7d'])

def reprItems (printable : CodePoint → Bool) : List Value → Option (List Str)
  | [] => some []
  | x :: xs => do some ((← reprValue printable x) :: (← reprItems printable xs))

def reprMembers (printable : CodePoint → Bool) : Obj → Option (List Str)
  | [] => some []
  | (k, v) :: kvs => do
    some ((reprStr printable k ++ lit ": " ++ (← reprValue printable v))
      :: (← reprMembers printable kvs))

end

/-- `str(value)`. -/
def strValue (printable : CodePoint → Bool) : Value → Option Str
  | .str s => some s
  | v => reprValue printable v

end Py
