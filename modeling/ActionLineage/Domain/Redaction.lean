import ActionLineage.Domain.Json

/-!
# Fail-closed redaction before persistence

`redactValue` walks a value with the path it is at. A sensitive path or field name becomes a marker;
text goes through every pattern and, unless its path is exempt, is cut to the capture limit; a cut
text becomes a capture object that counts against the budget of the pass.

`RedactionPolicy.apply` turns every exception into `RedactionError`, which is a `RuntimeError`.
-/

namespace ActionLineage

open Py

abbrev Path := List Str

/-- A named replacement; applying it can raise (`re.error` of a bad template). -/
structure RedactionPattern where
  apply : Str → Except PyError Str

structure RedactionPolicy where
  sensitivePaths : List Path
  sensitiveFieldNames : List Str
  maxStringLength : Int
  maxBytesLength : Int
  maxCaptureCount : Int
  maxCaptureBytes : Int
  maxJsonDepth : Int
  maxObjectMembers : Int
  maxArrayLength : Int
  captureExemptPaths : List Path
  patterns : List RedactionPattern

/-! ## Markers and captures -/

def REDACTED_VALUE : Str := lit "[REDACTED:sensitive]"

def redactedMarker (reason : Str) : Value := .dict
  [(lit "marker", .str (lit "actionlineage.redacted.v1")), (lit "reason", .str reason),
   (lit "value", .str REDACTED_VALUE)]

def CAPTURE_DIGEST_SCOPE : Str := lit "actionlineage.capture.v1/redaction-boundary"

structure CaptureMetadata where
  encoding : Str
  value : Str
  originalLength : Nat
  capturedLength : Nat
  truncated : Bool
  digest : Str

def CaptureMetadata.asJson (c : CaptureMetadata) : Value := .dict
  [(lit "marker", .str (lit "actionlineage.capture.v1")), (lit "encoding", .str c.encoding),
   (lit "value", .str c.value), (lit "original_length", .int c.originalLength),
   (lit "captured_length", .int c.capturedLength), (lit "truncated", .bool c.truncated),
   (lit "digest", .str c.digest), (lit "digest_scope", .str CAPTURE_DIGEST_SCOPE)]

/-- `text.encode("utf-8")`. -/
def encodeUtf8 (s : Str) : Except PyError Bytes :=
  (utf8Encode s).elim (.error .unicodeEncodeError) .ok

def base64Char (n : Nat) : CodePoint :=
  let n := n % 64
  if n < 26 then ⟨65 + n % 26, by omega⟩
  else if n < 52 then ⟨97 + (n - 26) % 26, by omega⟩
  else if n < 62 then ⟨48 + (n - 52) % 10, by omega⟩
  else if n = 62 then cp '+' else cp '/'

/-- `base64.b64encode(data).decode("ascii")`. -/
def base64 : Bytes → Str
  | [] => []
  | [a] => [base64Char (a.val / 4), base64Char (a.val * 16), cp '=', cp '=']
  | [a, b] =>
    [base64Char (a.val / 4), base64Char (a.val * 16 + b.val / 16), base64Char (b.val * 4), cp '=']
  | a :: b :: c :: rest =>
    base64Char (a.val / 4) :: base64Char (a.val * 16 + b.val / 16)
      :: base64Char (b.val * 4 + c.val / 64) :: base64Char c.val :: base64 rest

section Redact

variable (P : Platform)

/-- `b"\x00".join((scope, encoding, value))`, digested. -/
def sha256ScopedCaptureBytes (encoding : Str) (value : Bytes) : Str :=
  P.sha256Digest (utf8Bytes CAPTURE_DIGEST_SCOPE ++ (0 : Byte) :: (utf8Bytes encoding
    ++ (0 : Byte) :: value))

def captureString (maxLength : Int) (value : Str) : Except PyError Value :=
  if maxLength < 0 then .error (.valueError "max_length must be non-negative")
  else if (value.length : Int) ≤ maxLength then .ok (.str value)
  else do
    let encoded ← encodeUtf8 value
    let captured := value.take maxLength.toNat
    .ok (CaptureMetadata.asJson
      { encoding := lit "text", value := captured, originalLength := value.length
        capturedLength := captured.length, truncated := true
        digest := sha256ScopedCaptureBytes P (lit "text") encoded })

def captureBytes (maxLength : Int) (value : Bytes) : Except PyError Value :=
  if maxLength < 0 then .error (.valueError "max_length must be non-negative")
  else
    let captured := value.take maxLength.toNat
    .ok (CaptureMetadata.asJson
      { encoding := lit "base64", value := base64 captured, originalLength := value.length
        capturedLength := captured.length, truncated := decide (maxLength < value.length)
        digest := sha256ScopedCaptureBytes P (lit "base64") value })

/-! ## The capture budget of one pass -/

structure CaptureBudget where
  maxCount : Int
  maxBytes : Int
  count : Int
  capturedBytes : Int

namespace CaptureBudget

def record (b : CaptureBudget) (capturedBytes : Nat) : Except PyError CaptureBudget :=
  if b.maxCount < b.count + 1 then
    .error (.redactionError ("captured value count exceeds " ++ toString b.maxCount))
  else if b.maxBytes < b.capturedBytes + capturedBytes then
    .error (.redactionError ("captured bytes exceed " ++ toString b.maxBytes))
  else .ok { b with count := b.count + 1, capturedBytes := b.capturedBytes + capturedBytes }

end CaptureBudget

def captureBudget (policy : RedactionPolicy) : Except PyError CaptureBudget :=
  if policy.maxCaptureCount < 0 then
    .error (.redactionError "max_capture_count must be non-negative")
  else if policy.maxCaptureBytes < 0 then
    .error (.redactionError "max_capture_bytes must be non-negative")
  else .ok ⟨policy.maxCaptureCount, policy.maxCaptureBytes, 0, 0⟩

def recordCapture (value : Value) (budget : CaptureBudget) : Except PyError CaptureBudget :=
  match value with
  | .dict kvs =>
    match Obj.get? kvs (lit "marker") with
    | some (.str m) =>
      if m = lit "actionlineage.capture.v1" then
        match Obj.get? kvs (lit "value") with
        | some (.str captured) =>
          match Obj.get? kvs (lit "encoding") with
          | some (.str e) =>
            if e = lit "text" then do budget.record (← encodeUtf8 captured).length
            else if e = lit "base64" then budget.record captured.length
            else .error (.redactionError "capture metadata encoding is invalid")
          | _ => .error (.redactionError "capture metadata encoding is invalid")
        | _ => .error (.redactionError "capture metadata value must be a string")
      else .ok budget
    | _ => .ok budget
  | _ => .ok budget

/-! ## The walk -/

def redactText (policy : RedactionPolicy) (value : Str) : Except PyError Str :=
  policy.patterns.foldlM (fun redacted pattern => pattern.apply redacted) value

def isSensitivePath (path : Path) (policy : RedactionPolicy) : Bool :=
  policy.sensitivePaths.contains path

/-- `path[-1].replace("-", "_").lower()` is a sensitive name. -/
def isSensitiveField (path : Path) (policy : RedactionPolicy) : Bool :=
  match path.getLast? with
  | none => false
  | some name =>
    policy.sensitiveFieldNames.contains
      (P.lower (name.map fun c => if c = cp '-' then cp '_' else c))

def isCaptureExemptPath (path : Path) (policy : RedactionPolicy) : Bool :=
  policy.captureExemptPaths.contains path

def isSensitive (path : Path) (policy : RedactionPolicy) : Bool :=
  isSensitivePath path policy || isSensitiveField P path policy

/-- The `str` case of `redact_value`. -/
def redactStr (policy : RedactionPolicy) (path : Path) (value : Str) (budget : CaptureBudget) :
    Except PyError (Value × CaptureBudget) := do
  let redacted ← redactText policy value
  if isCaptureExemptPath path policy then .ok (.str redacted, budget)
  else
    let captured ← captureString P policy.maxStringLength redacted
    .ok (captured, ← recordCapture captured budget)

def depthOk (policy : RedactionPolicy) (depth : Nat) : Except PyError Unit :=
  require (decide ((depth : Int) ≤ policy.maxJsonDepth))
    (.redactionError ("JSON depth exceeds " ++ toString policy.maxJsonDepth))

mutual

def redactValue (policy : RedactionPolicy) (path : Path) (depth : Nat) (budget : CaptureBudget) :
    Value → Except PyError (Value × CaptureBudget)
  | .str s =>
    if isSensitive P path policy then .ok (redactedMarker (lit "sensitive"), budget)
    else do
      depthOk policy depth
      redactStr P policy path s budget
  | .bytes b =>
    if isSensitive P path policy then .ok (redactedMarker (lit "sensitive"), budget)
    else do
      depthOk policy depth
      let captured ← captureBytes P policy.maxBytesLength b
      .ok (captured, ← recordCapture captured budget)
  | .float x =>
    if isSensitive P path policy then .ok (redactedMarker (lit "sensitive"), budget)
    else do
      depthOk policy depth
      require x.isFinite (.redactionError "JSON numbers must be finite")
      .ok (.float x, budget)
  | .dict kvs =>
    if isSensitive P path policy then .ok (redactedMarker (lit "sensitive"), budget)
    else do
      depthOk policy depth
      require (decide ((kvs.length : Int) ≤ policy.maxObjectMembers))
        (.redactionError
          ("JSON object exceeds " ++ toString policy.maxObjectMembers ++ " members"))
      let r ← redactMembers policy path (depth + 1) budget kvs
      .ok (.dict r.1, r.2)
  | .list xs =>
    if isSensitive P path policy then .ok (redactedMarker (lit "sensitive"), budget)
    else do
      depthOk policy depth
      require (decide ((xs.length : Int) ≤ policy.maxArrayLength))
        (.redactionError ("JSON array exceeds " ++ toString policy.maxArrayLength ++ " items"))
      let r ← redactItems policy path (depth + 1) budget xs
      .ok (.list r.1, r.2)
  | v =>
    if isSensitive P path policy then .ok (redactedMarker (lit "sensitive"), budget)
    else do
      depthOk policy depth
      .ok (v, budget)

def redactMembers (policy : RedactionPolicy) (path : Path) (depth : Nat) (budget : CaptureBudget) :
    Obj → Except PyError (Obj × CaptureBudget)
  | [] => .ok ([], budget)
  | (k, v) :: kvs => do
    let r ← redactValue policy (path ++ [P.lower k]) depth budget v
    let rs ← redactMembers policy path depth r.2 kvs
    .ok ((k, r.1) :: rs.1, rs.2)

def redactItems (policy : RedactionPolicy) (path : Path) (depth : Nat) (budget : CaptureBudget) :
    List Value → Except PyError (List Value × CaptureBudget)
  | [] => .ok ([], budget)
  | x :: xs => do
    let r ← redactValue policy path depth budget x
    let rs ← redactItems policy path depth r.2 xs
    .ok (r.1 :: rs.1, rs.2)

end

/-- `RedactionPolicy.apply`. -/
def RedactionPolicy.apply (policy : RedactionPolicy) (value : Value) : Except PyError Value :=
  let result := do
    let budget ← captureBudget policy
    let r ← redactValue P policy [] 0 budget value
    .ok r.1
  match result with
  | .ok v => .ok v
  | .error _ => .error (.redactionError "redaction failed before persistence")

end Redact

/-! ## The default policy -/

section Defaults

variable (P : Platform)

/-- `\s`. -/
def isRegexSpace (c : CodePoint) : Bool :=
  (9 ≤ c.val && c.val ≤ 13) || (28 ≤ c.val && c.val ≤ 32) || c.val == 0x85 || c.val == 0xA0
    || c.val == 0x1680 || (0x2000 ≤ c.val && c.val ≤ 0x200A) || c.val == 0x2028
    || c.val == 0x2029 || c.val == 0x202F || c.val == 0x205F || c.val == 0x3000

def isAlphaNum (c : CodePoint) : Bool :=
  isDigit c || (65 ≤ c.val && c.val ≤ 90) || (97 ≤ c.val && c.val ≤ 122)

/-- `[A-Za-z0-9]` under `(?i)`: the class also takes the four letters that fold into ASCII. -/
def isAlphaNumFold (c : CodePoint) : Bool :=
  isAlphaNum c || c.val == 0x130 || c.val == 0x131 || c.val == 0x17F || c.val == 0x212A

/-- `[A-Za-z0-9._~+/=-]`. -/
def isTokenText (c : CodePoint) : Bool :=
  isAlphaNum c || [cp '.', cp '_', cp '~', cp '+', cp '/', cp '=', cp '-'].contains c

def isTokenTextFold (c : CodePoint) : Bool := isTokenText c || isAlphaNumFold c

def exactly (c : Char) : CharSet := fun x => x == cp c

/-- A literal under `(?i)`. -/
def folded (c : Char) : CharSet := fun x =>
  asciiLower x == asciiLower (cp c)
    || (asciiLower (cp c) == cp 'i' && (x.val == 0x130 || x.val == 0x131))
    || (asciiLower (cp c) == cp 's' && x.val == 0x17F)
    || (asciiLower (cp c) == cp 'k' && x.val == 0x212A)

/-- The class `[…]` of the given characters. -/
def oneOf (s : String) : CharSet := fun x => (lit s).contains x

/-- `-----BEGIN [A-Z ]*PRIVATE KEY-----.*?-----END [A-Z ]*PRIVATE KEY-----` with `re.DOTALL`. -/
def privateKeyPattern : Re :=
  let upper : CharSet := fun c => (65 ≤ c.val && c.val ≤ 90) || c == cp ' '
  .seqs [.text exactly "-----BEGIN ", .rep upper 0 none false, .text exactly "PRIVATE KEY-----",
    .rep (fun _ => true) 0 none true, .text exactly "-----END ", .rep upper 0 none false,
    .text exactly "PRIVATE KEY-----"]

/-- `\bBearer\s+[A-Za-z0-9._~+/=-]{8,}\b`. -/
def bearerTokenPattern : Re :=
  .seqs [.boundary P.isWord, .text exactly "Bearer", .rep isRegexSpace 1 none false,
    .rep isTokenText 8 none false, .boundary P.isWord]

/-- `(?i)\b(?:postgres(?:ql)?|…|amqps)://[^\s\"'<>]+`. -/
def databaseUrlPattern : Re :=
  let scheme := Re.alts
    [.seq (.text folded "postgres") (.alt (.text folded "ql") .eps), .text folded "mysql",
     .text folded "mariadb", .seq (.text folded "mongodb") (.alt (.text folded "+srv") .eps),
     .text folded "redis", .text folded "rediss", .text folded "amqp", .text folded "amqps"]
  .seqs [.boundary P.isWord, scheme, .text exactly "://",
    .rep (fun c => !(isRegexSpace c || oneOf "\"'<>" c)) 1 none false]

/-- `(?i)\b(x-amz-signature|…|token)=([^&\s\"'<>]{8,})`. -/
def signedUrlParameterPattern : Re :=
  let name := Re.alts
    [.text folded "x-amz-signature", .text folded "x-amz-credential",
     .text folded "x-amz-security-token", .text folded "signature", .text folded "sig",
     .text folded "access_token", .text folded "refresh_token", .text folded "client_secret",
     .text folded "token"]
  .seqs [.boundary P.isWord, .group name, .text exactly "=",
    .rep (fun c => !(isRegexSpace c || oneOf "&\"'<>" c)) 8 none false]

/-- Words joined by `[_-]?`. -/
def dashed : List String → Re
  | [] => .eps
  | [w] => .text folded w
  | w :: ws => .seqs [.text folded w, .opt (oneOf "_-"), dashed ws]

/-- `(?i)(?<![A-Za-z0-9])(api[_-]?key|…|secret)(?![A-Za-z0-9])\s*[:=]\s*['\"]?[…]{8,}['\"]?`. -/
def keyValueSecretPattern : Re :=
  let name := Re.alts
    [dashed ["api", "key"], dashed ["access", "token"], dashed ["refresh", "token"],
     dashed ["id", "token"], dashed ["client", "secret"],
     .seqs [.text folded "webhook", .opt (oneOf "_-"),
       .alts [.text folded "secret", .text folded "token", .text folded "signature"]],
     dashed ["signing", "secret"], dashed ["session", "token"], dashed ["security", "token"],
     dashed ["aws", "secret", "access", "key"], dashed ["aws", "session", "token"],
     dashed ["private", "key"], .text folded "token", .text folded "password",
     .text folded "secret"]
  .seqs [.notBehind isAlphaNumFold, .group name, .notAhead isAlphaNumFold,
    .rep isRegexSpace 0 none false, .cls (oneOf ":="), .rep isRegexSpace 0 none false,
    .opt (oneOf "'\""), .rep isTokenTextFold 8 none false, .opt (oneOf "'\"")]

/-- The patterns with their replacement templates. -/
def DEFAULT_RULES : List (Re × List Piece) :=
  [(privateKeyPattern, [.text (lit "[REDACTED:private_key]")]),
   (bearerTokenPattern P, [.text (lit "Bearer [REDACTED:bearer_token]")]),
   (databaseUrlPattern P, [.text (lit "[REDACTED:database_url]")]),
   (signedUrlParameterPattern P, [.group, .text (lit "=[REDACTED:secret]")]),
   (keyValueSecretPattern, [.group, .text (lit "=[REDACTED:secret]")])]

def DEFAULT_PATTERNS : List RedactionPattern :=
  (DEFAULT_RULES P).map fun rule => ⟨fun s => .ok (rule.1.sub rule.2 s)⟩

def DEFAULT_SENSITIVE_FIELD_NAMES : List Str :=
  ["access_token", "api_key", "apikey", "auth_token", "authorization", "aws_access_key_id",
   "aws_secret_access_key", "aws_session_token", "bearer_token", "client_secret",
   "client_secret_value", "cloud_session_token", "connection_string", "cookie", "database_dsn",
   "database_url", "db_url", "dsn", "id_token", "oauth_token", "password", "pre_signed_url",
   "presigned_url", "private_key_pem", "private_key", "proxy_authorization", "refresh_token",
   "secret", "security_token", "set_cookie", "signed_url", "signing_secret", "session_cookie",
   "session_token", "ssh_private_key", "token", "webhook_secret", "webhook_signature",
   "webhook_token", "x_api_key"].map lit

def DEFAULT_CAPTURE_EXEMPT_PATHS : List Path :=
  [["spec_version"], ["event_id"], ["event_type"], ["occurred_at"], ["observed_at"],
   ["source", "component"], ["source", "instance_id"], ["source", "version"],
   ["correlation", "trace_id"], ["correlation", "run_id"], ["correlation", "span_id"],
   ["correlation", "session_id"], ["causality", "root_event_id"],
   ["causality", "parent_event_id"], ["principal", "principal_id"],
   ["principal", "principal_type"], ["principal", "on_behalf_of"], ["principal", "model_id"],
   ["principal", "credential_id"], ["classification", "sensitivity"],
   ["classification", "trust"], ["integrity", "canonicalization"],
   ["integrity", "previous_event_hash"], ["integrity", "event_hash"],
   ["payload", "evidence_link", "subject_event_id"],
   ["payload", "evidence_link", "relationship"],
   ["payload", "evidence_link", "evidence_event_id"],
   ["payload", "evidence_link", "corroboration_type"],
   ["payload", "evidence_link", "observer_identity"],
   ["payload", "evidence_link", "verification_status"], ["payload", "subject_event_id"],
   ["payload", "evidence_event_id"], ["payload", "verification_status"]].map (·.map lit)

/-- `RedactionPolicy()`. -/
def RedactionPolicy.default : RedactionPolicy where
  sensitivePaths := []
  sensitiveFieldNames := DEFAULT_SENSITIVE_FIELD_NAMES
  maxStringLength := 4096
  maxBytesLength := 4096
  maxCaptureCount := 128
  maxCaptureBytes := 65536
  maxJsonDepth := DEFAULT_JSON_MAX_DEPTH
  maxObjectMembers := DEFAULT_JSON_MAX_OBJECT_MEMBERS
  maxArrayLength := DEFAULT_JSON_MAX_ARRAY_LENGTH
  captureExemptPaths := DEFAULT_CAPTURE_EXEMPT_PATHS
  patterns := DEFAULT_PATTERNS P

end Defaults

end ActionLineage
