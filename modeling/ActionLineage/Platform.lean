import ActionLineage.Py.JsonRoundTrip
import ActionLineage.Py.DateTime
import ActionLineage.Py.Regex

/-!
# What the code runs on

`PyError` is the exceptions the code raises or lets through, with the class tests its `except`
clauses make. `Platform` collects what is not in the repository: digests, Unicode tables, pydantic's
lax parsers and JSON-mode dump, the interpreter's recursion limit. Each comes with the documented
behaviour the code relies on, as a field, so that a platform without it cannot be built.
-/

namespace ActionLineage

open Py

/-- Correspondence of a projection and a journal. -/
inductive ProjectionStateCode
  | healthy | journalInvalid | projectionMissing | projectionUnavailable | projectionStale
  | projectionMismatch | projectionRebuildRequired
deriving DecidableEq, Repr

inductive PyError
  | valueError (message : String)
  | typeError (message : String)
  | indexError (message : String)
  | overflowError (message : String)
  | recursionError
  | unicodeEncodeError
  | unicodeDecodeError
  | jsonDecodeError
  /-- `pydantic.ValidationError`. -/
  | validationError
  | canonicalizationError (label : Str)
  | redactionError (message : String)
  | eventParseError
  | journalError (message : String)
  | journalAppendError (message : String)
  /-- A `RuntimeError`, not a `JournalError`. -/
  | journalAnchorError (message : String)
  /-- `ProjectionVerificationError`, `ProjectionRebuildError`, `ProjectionQueryError` and
  `ProjectionIndexError`: `RuntimeError`s. -/
  | projectionError (message : String)
  /-- The `ProjectionIndexError` of an event id that is already indexed. -/
  | eventAlreadyIndexed (eventId : Str)
  | projectionSchemaError (message : String)
  | projectionStateError (code : ProjectionStateCode) (message : String)
  /-- `sqlite3.Error`. -/
  | sqliteError
  /-- A `ValueError`. -/
  | tenantIsolationError (message : String)
  /-- A `ValueError`. -/
  | detectionRuleLoadError (message : String)
deriving DecidableEq, Repr

namespace PyError

/-- `isinstance(exc, ValueError)`. -/
def isValueError : PyError → Bool
  | valueError _ | unicodeEncodeError | unicodeDecodeError | jsonDecodeError | validationError
  | canonicalizationError _ | tenantIsolationError _ | detectionRuleLoadError _ => true
  | _ => false

/-- `isinstance(exc, ActionLineageError)`. -/
def isActionLineageError : PyError → Bool
  | eventParseError => true
  | _ => false

/-- `isinstance(exc, JournalError)`. -/
def isJournalError : PyError → Bool
  | journalError _ | journalAppendError _ => true
  | _ => false

def ofDump : DumpError → PyError
  | .intDigits => valueError "Exceeds the limit (4300 digits) for integer string conversion"
  | .notFinite => valueError "Out of range float values are not JSON compliant"
  | .notSerializable => typeError "Object of type bytes is not JSON serializable"
  | .surrogate => unicodeEncodeError

def ofLoad : LoadError → PyError
  | .undecodable => unicodeDecodeError
  | .malformed => jsonDecodeError
  | .intDigits => valueError "Exceeds the limit (4300 digits) for integer string conversion"
  | .rejected message => valueError message
  | .recursion => recursionError

end PyError

/-- The letters of a hexadecimal digest. -/
def isHexChar (c : CodePoint) : Bool := isDigit c || (97 ≤ c.val && c.val ≤ 102)

def asciiLower (c : CodePoint) : CodePoint :=
  if h : 65 ≤ c.val ∧ c.val ≤ 90 then ⟨c.val + 32, by omega⟩ else c

/-- How `re.search` ends. -/
inductive SearchResult
  | found
  | absent
  /-- `re.error`. -/
  | malformed
  | raised (exc : PyError)
deriving DecidableEq, Repr

structure Platform where
  /-- `hashlib.sha256(data).hexdigest()`. -/
  sha256Hex : Bytes → Str
  sha256Hex_hex : ∀ b, ∀ c ∈ sha256Hex b, isHexChar c = true
  /-- `hmac.new(key, data, hashlib.sha256).hexdigest()`. -/
  hmacSha256Hex : Bytes → Bytes → Str
  hmacSha256Hex_hex : ∀ key b, ∀ c ∈ hmacSha256Hex key b, isHexChar c = true
  /-- Unicode word characters beyond ASCII (`\w`). -/
  isWordBeyondAscii : CodePoint → Bool
  /-- Code points beyond ASCII that `repr` writes as they are. -/
  isPrintableBeyondAscii : CodePoint → Bool
  /-- Unicode decimal digits beyond ASCII, with their values. -/
  decimalBeyondAscii : CodePoint → Option Nat
  /-- `re.search(pattern, text)`. -/
  reSearch : Str → Str → SearchResult
  /-- `str.lower`. -/
  lower : Str → Str
  lower_ascii : ∀ s, (∀ c ∈ s, c.val < 128) → lower s = s.map asciiLower
  /-- Whether pydantic accepts a `str` for a length-constrained field; it needs the UTF-8 form. -/
  strOk : Str → Bool
  strOk_of_surrogateFree : ∀ s, SurrogateFree s → strOk s = true
  /-- Lax `int` validation of a JSON value. -/
  parseInt : Value → Option Int
  parseInt_int : ∀ i, parseInt (.int i) = some i
  parseInt_dict : ∀ kvs, parseInt (.dict kvs) = none
  /-- Lax `datetime` validation of a JSON value: local fields and the offset in seconds. -/
  parseDatetime : Value → Option (DateTime × Option Int)
  parseDatetime_isoZ : ∀ d, parseDatetime (.str d.isoZ) = some (d, some 0)
  /-- `datetime.fromisoformat`: local fields and the offset in seconds. -/
  fromIsoFormat : Str → Option (DateTime × Option Int)
  fromIsoFormat_isoformat : ∀ d, fromIsoFormat d.isoformat = some (d, some 0)
  /-- The system's offset at a naive local time, which `astimezone` assumes. -/
  localOffset : DateTime → Int
  /-- `model_dump(mode="json")` of a payload dict. -/
  dumpPayload : Obj → Except PyError Obj
  dumpPayload_eq : ∀ o, (Value.dict o).KeysSurrogateFree → dumpPayload o = .ok o
  dumpPayload_wellFormed : ∀ o o', (Value.dict o).WellFormed → dumpPayload o = .ok o' →
    (Value.dict o').WellFormed
  recursionLimit : Nat
  recursionLimit_ge : 100 ≤ recursionLimit

namespace Platform

variable (P : Platform)

/-- `f"sha256:{hashlib.sha256(data).hexdigest()}"`. -/
def sha256Digest (b : Bytes) : Str := lit "sha256:" ++ P.sha256Hex b

theorem sha256Digest_ne_nil (b : Bytes) : P.sha256Digest b ≠ [] := by
  have h : lit "sha256:" ≠ [] := by decide
  simp [sha256Digest, h]

theorem sha256Digest_injective (h : Function.Injective P.sha256Hex) :
    Function.Injective P.sha256Digest := by
  intro a b hab
  exact h (List.append_cancel_left hab)

/-- `\w` for `str` patterns. -/
def isWord (c : CodePoint) : Bool :=
  if c.val < 128 then isDigit c || (65 ≤ c.val && c.val ≤ 90) || (97 ≤ c.val && c.val ≤ 122)
    || c == cp '_'
  else P.isWordBeyondAscii c

/-- Lower-case ASCII text is its own lower case. -/
theorem lower_eq_self {s : Str} (h : s.all (fun c => c.val < 128 && asciiLower c == c) = true) :
    P.lower s = s := by
  simp only [List.all_eq_true, Bool.and_eq_true, decide_eq_true_eq, beq_iff_eq] at h
  rw [P.lower_ascii s fun c hc => (h c hc).1]
  calc s.map asciiLower = s.map id := List.map_congr_left fun c hc => (h c hc).2
    _ = s := List.map_id s

end Platform

end ActionLineage
