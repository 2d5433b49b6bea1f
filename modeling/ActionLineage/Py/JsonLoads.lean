import ActionLineage.Py.JsonDumps

/-!
# `json.loads` — a pushdown machine over characters

The scanner is a machine whose stack holds the containers that are waiting for a value and whose
mode says what is being read. One character is one `step`; no fuel is involved, and nesting is
bounded by the interpreter's recursion limit, as it is in CPython, where exceeding it raises
`RecursionError` rather than a decode error.

* A number or literal is collected as a maximal run of token characters and read when the run ends
  (`settle`); CPython matches the longest prefix instead and then trips over the rest of the run,
  so both accept the same documents.
* `Hooks` are the `object_pairs_hook` and `parse_constant` arguments.
-/

namespace Py

inductive LoadError
  /-- `UnicodeDecodeError`. -/
  | undecodable
  /-- `json.JSONDecodeError`. -/
  | malformed
  /-- `ValueError`: an integer of more than 4300 digits. -/
  | intDigits
  /-- `ValueError` raised by a hook. -/
  | rejected (message : String)
  /-- `RecursionError`. -/
  | recursion
deriving DecidableEq, Repr

structure Hooks where
  objectPairs : Obj → Except LoadError Obj
  parseConstant : Str → Except LoadError Value
  recursionLimit : Nat

/-- The defaults: a repeated key keeps its last value, and the non-finite tokens are floats. -/
def Hooks.plain (recursionLimit : Nat) : Hooks where
  objectPairs kvs := .ok (dictOf kvs)
  parseConstant token :=
    .ok (.float (if token = lit "NaN" then .nan else .inf (decide (token = lit "-Infinity"))))
  recursionLimit := recursionLimit

/-! ## String literals -/

inductive Escape
  | none
  | backslash
  /-- Inside `\uXXXX`: the digits read so far and how many are left. -/
  | hex (value left : Nat)

/-- A string literal being read. -/
structure TextScan where
  /-- The characters read, last first. -/
  acc : Str
  /-- A high surrogate escape that may still pair with the next escape. -/
  high : Option CodePoint
  escape : Escape

namespace TextScan

def start : TextScan := ⟨[], none, .none⟩

/-- The characters read, with an unpaired surrogate left as it is. -/
def flush (s : TextScan) : Str :=
  match s.high with
  | none => s.acc
  | some h => h :: s.acc

def joinSurrogates (h l : CodePoint) : CodePoint :=
  ⟨0x10000 + (h.val - 0xD800) % 1024 * 1024 + (l.val - 0xDC00) % 1024, by omega⟩

/-- A complete `\uXXXX` escape. -/
def pushUnit (s : TextScan) (u : CodePoint) : TextScan :=
  match s.high with
  | none => if isHighSurrogate u then ⟨s.acc, some u, .none⟩ else ⟨u :: s.acc, none, .none⟩
  | some h =>
    if isLowSurrogate u then ⟨joinSurrogates h u :: s.acc, none, .none⟩
    else if isHighSurrogate u then ⟨h :: s.acc, some u, .none⟩
    else ⟨u :: h :: s.acc, none, .none⟩

def unescape (c : CodePoint) : Option CodePoint :=
  if c = cp '"' then some (cp '"')
  else if c = cp '\\' then some (cp '\\')
  else if c = cp '/' then some (cp '/')
  else if c = cp 'b' then some ⟨8, by decide⟩
  else if c = cp 'f' then some ⟨12, by decide⟩
  else if c = cp 'n' then some ⟨10, by decide⟩
  else if c = cp 'r' then some ⟨13, by decide⟩
  else if c = cp 't' then some ⟨9, by decide⟩
  else none

def hexVal (c : CodePoint) : Option Nat :=
  if 48 ≤ c.val ∧ c.val ≤ 57 then some (c.val - 48)
  else if 97 ≤ c.val ∧ c.val ≤ 102 then some (c.val - 87)
  else if 65 ≤ c.val ∧ c.val ≤ 70 then some (c.val - 55)
  else none

/-- One character of a string literal; `inr` is the finished text. -/
def step (s : TextScan) (c : CodePoint) : Except LoadError (TextScan ⊕ Str) :=
  match s.escape with
  | .none =>
    if c = cp '"' then .ok (.inr s.flush.reverse)
    else if c = cp '\\' then .ok (.inl { s with escape := .backslash })
    else if c.val < 0x20 then .error .malformed
    else .ok (.inl ⟨c :: s.flush, none, .none⟩)
  | .backslash =>
    if c = cp 'u' then .ok (.inl { s with escape := .hex 0 3 })
    else
      match unescape c with
      | some d => .ok (.inl ⟨d :: s.flush, none, .none⟩)
      | none => .error .malformed
  | .hex value left =>
    match hexVal c, left with
    | none, _ => .error .malformed
    | some d, left + 1 => .ok (.inl { s with escape := .hex (value * 16 + d) left })
    | some d, 0 => .ok (.inl (s.pushUnit ⟨(value * 16 + d) % 0x10000, by omega⟩))

end TextScan

/-! ## The machine -/

/-- A container waiting for a value. -/
inductive Frame
  | item (xs : List Value)
  | member (kvs : Obj) (k : Str)

inductive Mode
  /-- A value must start. -/
  | value
  /-- After `[`: an item or `]`. -/
  | firstItem
  | afterItem (xs : List Value)
  /-- A key must start; `first` is right after `{`, where `}` is allowed too. -/
  | key (first : Bool) (kvs : Obj)
  | colon (kvs : Obj) (k : Str)
  | afterMember (kvs : Obj)
  /-- A number or literal, last character first. -/
  | token (acc : Str)
  /-- A string literal: a value, or a key of the dict `kvs`. -/
  | text (key : Option Obj) (s : TextScan)
  | done (v : Value)

structure Scan where
  stack : List Frame
  mode : Mode

namespace Scan

def start : Scan := ⟨[], .value⟩

def isSpace (c : CodePoint) : Bool :=
  c == cp ' ' || c == cp '\t' || c == cp '\n' || c == cp '\r'

/-- Characters of numbers and literals. -/
def isTokenChar (c : CodePoint) : Bool :=
  isNumberChar c || (65 ≤ c.val && c.val ≤ 90) || (97 ≤ c.val && c.val ≤ 122)

/-- A value has been read. -/
def complete (v : Value) : List Frame → Scan
  | [] => ⟨[], .done v⟩
  | .item xs :: st => ⟨st, .afterItem (xs ++ [v])⟩
  | .member kvs k :: st => ⟨st, .afterMember (kvs ++ [(k, v)])⟩

def tokenValue (h : Hooks) (tok : Str) : Except LoadError Value :=
  if tok = lit "null" then .ok .null
  else if tok = lit "true" then .ok (.bool true)
  else if tok = lit "false" then .ok (.bool false)
  else if tok = lit "NaN" ∨ tok = lit "Infinity" ∨ tok = lit "-Infinity" then h.parseConstant tok
  else
    match parseNumber tok with
    | none => .error .malformed
    | some t =>
      if t.isInt then
        if maxIntDigits < t.ip.length then .error .intDigits else .ok (.int t.toInt)
      else .ok (.float t.toFloat)

/-- Reads a token that has ended. -/
def settle (h : Hooks) (s : Scan) : Except LoadError Scan :=
  match s.mode with
  | .token acc => (tokenValue h acc.reverse).map fun v => complete v s.stack
  | _ => .ok s

/-- Enters a container unless the interpreter's recursion limit is reached. -/
def enter (h : Hooks) (st : List Frame) (m : Mode) : Except LoadError Scan :=
  if st.length < h.recursionLimit then .ok ⟨st, m⟩ else .error .recursion

def startValue (h : Hooks) (st : List Frame) (c : CodePoint) : Except LoadError Scan :=
  if c = cp '"' then .ok ⟨st, .text none .start⟩
  else if c = cp '[' then enter h st .firstItem
  else if c = cp '{' then enter h st (.key true [])
  else if isTokenChar c then .ok ⟨st, .token [c]⟩
  else .error .malformed

def closeObject (h : Hooks) (st : List Frame) (kvs : Obj) : Except LoadError Scan :=
  (h.objectPairs kvs).map fun o => complete (.dict o) st

/-- One character with no token pending. -/
def advance (h : Hooks) (s : Scan) (c : CodePoint) : Except LoadError Scan :=
  match s.mode with
  | .text key t =>
    (t.step c).map fun
      | .inl t => ⟨s.stack, .text key t⟩
      | .inr text =>
        match key with
        | none => complete (.str text) s.stack
        | some kvs => ⟨s.stack, .colon kvs text⟩
  | mode =>
    if isSpace c then .ok s
    else
      match mode with
      | .value => startValue h s.stack c
      | .firstItem =>
        if c = cp ']' then .ok (complete (.list []) s.stack)
        else startValue h (.item [] :: s.stack) c
      | .afterItem xs =>
        if c = cp ',' then .ok ⟨.item xs :: s.stack, .value⟩
        else if c = cp ']' then .ok (complete (.list xs) s.stack)
        else .error .malformed
      | .key first kvs =>
        if c = cp '"' then .ok ⟨s.stack, .text (some kvs) .start⟩
        else if c = cp '}' ∧ first = true then closeObject h s.stack kvs
        else .error .malformed
      | .colon kvs k =>
        if c = cp ':' then .ok ⟨.member kvs k :: s.stack, .value⟩ else .error .malformed
      | .afterMember kvs =>
        if c = cp ',' then .ok ⟨s.stack, .key false kvs⟩
        else if c = cp '}' then closeObject h s.stack kvs
        else .error .malformed
      | _ => .error .malformed

def step (h : Hooks) (s : Scan) (c : CodePoint) : Except LoadError Scan :=
  match s.mode with
  | .token acc =>
    if isTokenChar c then .ok ⟨s.stack, .token (c :: acc)⟩
    else do advance h (← settle h s) c
  | _ => advance h s c

def run (h : Hooks) (s : Scan) (t : Str) : Except LoadError Scan := t.foldlM (step h) s

def finish (h : Hooks) (s : Scan) : Except LoadError Value := do
  match (← settle h s).mode with
  | .done v => .ok v
  | _ => .error .malformed

end Scan

/-- `json.loads(text)`. -/
def loadsText (h : Hooks) (t : Str) : Except LoadError Value := do
  Scan.finish h (← Scan.run h .start t)

/-- `json.loads(data)` for `bytes`. -/
def loads (h : Hooks) (b : Bytes) : Except LoadError Value :=
  match decodeJson b with
  | none => .error .undecodable
  | some t => loadsText h t

end Py
