import ActionLineage.Adapters.Frameworks

/-!
# Policy decisions and approvals

A decision says whether an adapter may dispatch a call. One that requires approval needs an artifact
whose nonce is claimed from the replay cache. Over any claims, one is accepted exactly when its
artifact is valid for it and its nonce has not been claimed before (`approvals_claimed_once`).
-/

namespace ActionLineage

open Py

inductive PolicyDecisionOutcome
  | allow | deny | requireApproval | dryRun | error
deriving DecidableEq, Repr

def PolicyDecisionOutcome.text : PolicyDecisionOutcome → Str
  | allow => lit "allow"
  | deny => lit "deny"
  | requireApproval => lit "require_approval"
  | dryRun => lit "dry_run"
  | error => lit "error"

inductive PolicyFailureMode
  | failOpen | failClosed
deriving DecidableEq, Repr

def PolicyFailureMode.text : PolicyFailureMode → Str
  | failOpen => lit "fail_open"
  | failClosed => lit "fail_closed"

inductive RiskClass
  | low | medium | high | critical
deriving DecidableEq, Repr

def RiskClass.text : RiskClass → Str
  | low => lit "low"
  | medium => lit "medium"
  | high => lit "high"
  | critical => lit "critical"

inductive ApprovalStatus
  | accepted | rejected
deriving DecidableEq, Repr

def ApprovalStatus.text : ApprovalStatus → Str
  | accepted => lit "accepted"
  | rejected => lit "rejected"

/-- `None` or a string. -/
def jsonOptText (s : Option Str) : JsonValue := (s.map jsonText).getD jsonNull

structure PolicyDecision where
  outcome : PolicyDecisionOutcome
  policyId : Str
  policyVersion : Str
  reason : Str
  riskClass : RiskClass := .medium
  evaluatorIdentity : Str := lit "policy-adapter"
  decisionId : Option Str := none

namespace PolicyDecision

def dispatchAllowed (d : PolicyDecision) (failureMode : PolicyFailureMode)
    (approvalAccepted : Bool) : Bool :=
  if d.outcome = .allow ∨ d.outcome = .dryRun then true
  else if d.outcome = .requireApproval then approvalAccepted
  else if d.outcome = .error then failureMode = .failOpen
  else false

def asPayload (d : PolicyDecision) : JsonObject :=
  .ofFields
    [(lit "outcome", some (jsonText d.outcome.text)),
     (lit "policy_id", some (jsonText d.policyId)),
     (lit "policy_version", some (jsonText d.policyVersion)),
     (lit "reason", some (jsonText d.reason)),
     (lit "risk_class", some (jsonText d.riskClass.text)),
     (lit "evaluator_identity", some (jsonText d.evaluatorIdentity)),
     (lit "decision_id", some (jsonOptText d.decisionId))]

end PolicyDecision

section Artifact

variable (P : Platform)

/-- `t.astimezone(UTC)`; a naive `datetime` is in the system's time zone. -/
def astimezoneUtc (t : Timestamp) : Except PyError DateTime :=
  match t.1.ofLocal (t.2.getD (P.localOffset t.1)) with
  | some utc => .ok utc
  | none => .error (.overflowError "date value out of range")

structure ApprovalArtifact where
  approvalId : Str
  subjectEventId : Str
  scope : Str
  expiresAt : Timestamp
  nonce : Str
  approvedBy : Str
  decisionEventId : Option Str := none

namespace ApprovalArtifact

def isValidFor (a : ApprovalArtifact) (now : Timestamp) (subjectEventId scope : Str) :
    Except PyError Bool := do
  let now ← astimezoneUtc P now
  if a.subjectEventId = subjectEventId ∧ a.scope = scope then
    .ok (decide (now ≤ (← astimezoneUtc P a.expiresAt)))
  else .ok false

def asPayload (a : ApprovalArtifact) : Except PyError JsonObject := do
  let expiresAt ← astimezoneUtc P a.expiresAt
  .ok (.ofFields
    [(lit "approval_id", some (jsonText a.approvalId)),
     (lit "subject_event_id", some (jsonText a.subjectEventId)),
     (lit "scope", some (jsonText a.scope)),
     (lit "expires_at", some (jsonText expiresAt.isoZ)),
     (lit "nonce", some (jsonText a.nonce)),
     (lit "approved_by", some (jsonText a.approvedBy)),
     (lit "decision_event_id", some (jsonOptText a.decisionEventId))])

end ApprovalArtifact

end Artifact

structure ApprovalValidationResult where
  status : ApprovalStatus
  reason : Str
  approvalId : Option Str := none

namespace ApprovalValidationResult

def accepted (r : ApprovalValidationResult) : Bool := r.status = .accepted

def asPayload (r : ApprovalValidationResult) : JsonObject :=
  .ofFields
    [(lit "status", some (jsonText r.status.text)),
     (lit "reason", some (jsonText r.reason)),
     (lit "approval_id", some (jsonOptText r.approvalId))]

end ApprovalValidationResult

/-! ## The replay cache -/

/-- The set of nonces that were used. -/
structure ApprovalReplayCache where
  usedNonces : List Str

def ApprovalReplayCache.empty : ApprovalReplayCache := ⟨[]⟩

/-- The arguments of one `claim`. -/
structure ApprovalClaim where
  artifact : ApprovalArtifact
  now : Timestamp
  subjectEventId : Str
  scope : Str

section Claims

variable (P : Platform)

def ApprovalClaim.valid (c : ApprovalClaim) : Except PyError Bool :=
  c.artifact.isValidFor P c.now c.subjectEventId c.scope

def ApprovalReplayCache.claim (cache : ApprovalReplayCache) (c : ApprovalClaim) :
    Except PyError ApprovalValidationResult × ApprovalReplayCache :=
  let approvalId := some c.artifact.approvalId
  if c.artifact.nonce ∈ cache.usedNonces then
    (.ok ⟨.rejected, lit "approval nonce was already used", approvalId⟩, cache)
  else
    match c.valid P with
    | .error exc => (.error exc, cache)
    | .ok false =>
      (.ok ⟨.rejected, lit "approval scope, subject, or expiry is invalid", approvalId⟩, cache)
    | .ok true =>
      (.ok ⟨.accepted, lit "approval accepted", approvalId⟩,
        { cache with usedNonces := c.artifact.nonce :: cache.usedNonces })

/-- Claims in their order: what each returned or raised, and the cache. -/
def runClaims : ApprovalReplayCache → List ApprovalClaim →
    List (Except PyError ApprovalValidationResult) × ApprovalReplayCache
  | cache, [] => ([], cache)
  | cache, c :: claims =>
    let step := cache.claim P c
    let rest := runClaims step.2 claims
    (step.1 :: rest.1, rest.2)

end Claims

/-- The call returned an accepting result. -/
def Accepted (r : Except PyError ApprovalValidationResult) : Prop :=
  ∃ result, r = .ok result ∧ result.accepted = true

variable {P : Platform} {cache : ApprovalReplayCache} {c : ApprovalClaim}

/-- What one claim does: it is accepted when its nonce is new and its artifact valid, and only then
is the nonce used up. -/
theorem claim_accepted_iff : Accepted (cache.claim P c).1 ↔
    c.artifact.nonce ∉ cache.usedNonces ∧ c.valid P = .ok true := by
  unfold ApprovalReplayCache.claim Accepted
  by_cases hused : c.artifact.nonce ∈ cache.usedNonces
  · simp [hused, ApprovalValidationResult.accepted]
  · cases hvalid : c.valid P with
    | error exc => simp [hused]
    | ok valid => cases valid <;> simp [hused, ApprovalValidationResult.accepted]

theorem mem_claim_usedNonces {nonce : Str} : nonce ∈ (cache.claim P c).2.usedNonces ↔
    nonce ∈ cache.usedNonces ∨ (nonce = c.artifact.nonce ∧ Accepted (cache.claim P c).1) := by
  rw [claim_accepted_iff]
  unfold ApprovalReplayCache.claim
  by_cases hused : c.artifact.nonce ∈ cache.usedNonces
  · simp [hused]
  · cases hvalid : c.valid P with
    | error exc => simp [hused]
    | ok valid => cases valid <;> simp [hused, or_comm]

/-- The cache in front of the `i`-th claim holds the old nonces and those accepted before. -/
theorem mem_usedNonces_take {nonce : Str} (claims : List ApprovalClaim) (i : Nat) :
    nonce ∈ (runClaims P cache (claims.take i)).2.usedNonces ↔ nonce ∈ cache.usedNonces ∨
      ∃ j < i, ∃ (c : ApprovalClaim) (r : _), claims[j]? = some c ∧
        (runClaims P cache claims).1[j]? = some r ∧ c.artifact.nonce = nonce ∧ Accepted r := by
  induction claims generalizing cache i with
  | nil => simp [runClaims]
  | cons c claims ih =>
    cases i with
    | zero => simp [runClaims]
    | succ i =>
      rw [List.take_succ_cons]
      simp only [runClaims]
      rw [ih, mem_claim_usedNonces, or_assoc]
      refine or_congr_right ?_
      constructor
      · rintro (⟨rfl, haccepted⟩ | ⟨j, hj, c', r, hc', hr, hnonce, haccepted⟩)
        · exact ⟨0, by omega, c, _, rfl, rfl, rfl, haccepted⟩
        · exact ⟨j + 1, by omega, c', r, by simpa using hc', by simpa using hr, hnonce, haccepted⟩
      · rintro ⟨j, hj, c', r, hc', hr, hnonce, haccepted⟩
        cases j with
        | zero =>
          obtain rfl : c = c' := by simpa using hc'
          obtain rfl : _ = r := by simpa using hr
          exact .inl ⟨hnonce.symm, haccepted⟩
        | succ j =>
          exact .inr ⟨j, by omega, c', r, by simpa using hc', by simpa using hr, hnonce, haccepted⟩

/-- The `i`-th result is that of the `i`-th claim on the cache in front of it. -/
theorem getElem?_runClaims (claims : List ApprovalClaim) (i : Nat) :
    (runClaims P cache claims).1[i]?
      = (claims[i]?).map fun c => ((runClaims P cache (claims.take i)).2.claim P c).1 := by
  induction claims generalizing cache i with
  | nil => simp [runClaims]
  | cons c claims ih =>
    cases i with
    | zero => simp [runClaims]
    | succ i => simpa [runClaims] using ih i

/-- The `i`-th of the claims, made one after the other of a fresh cache, was accepted. -/
def AcceptedAt (P : Platform) (claims : List ApprovalClaim) (i : Nat) : Prop :=
  ∃ r, (runClaims P .empty claims).1[i]? = some r ∧ Accepted r

theorem acceptedAt_iff {claims : List ApprovalClaim} {i : Nat} (hc : claims[i]? = some c) :
    AcceptedAt P claims i ↔ c.valid P = .ok true ∧
      ∀ j < i, ∀ c' : ApprovalClaim, claims[j]? = some c' → AcceptedAt P claims j →
        c'.artifact.nonce ≠ c.artifact.nonce := by
  have hresult : AcceptedAt P claims i ↔
      Accepted ((runClaims P .empty (claims.take i)).2.claim P c).1 := by
    unfold AcceptedAt
    rw [getElem?_runClaims, hc]
    simp
  rw [hresult, claim_accepted_iff, mem_usedNonces_take, and_comm]
  simp only [ApprovalReplayCache.empty, List.not_mem_nil, false_or, not_exists, not_and]
  refine and_congr_right fun _ => ?_
  constructor
  · intro h j hj c' hc' hat hnonce
    obtain ⟨r, hr, haccepted⟩ := hat
    exact h j hj c' r hc' hr hnonce haccepted
  · intro h j hj c' r hc' hr hnonce haccepted
    exact h j hj c' hc' ⟨r, hr, haccepted⟩ hnonce

/-- **Approvals are claimed once.** Over any claims, each is accepted exactly when its artifact is
valid for it and no earlier claim of the nonce was accepted, so a rejected claim uses nothing up;
and no nonce is accepted twice. -/
theorem approvals_claimed_once (P : Platform) (claims : List ApprovalClaim) :
    (∀ i (c : ApprovalClaim), claims[i]? = some c →
      (AcceptedAt P claims i ↔ c.valid P = .ok true ∧
        ∀ j < i, ∀ c' : ApprovalClaim, claims[j]? = some c' → AcceptedAt P claims j →
          c'.artifact.nonce ≠ c.artifact.nonce)) ∧
    ∀ i j (c c' : ApprovalClaim), claims[i]? = some c → claims[j]? = some c' →
      AcceptedAt P claims i → AcceptedAt P claims j → c.artifact.nonce = c'.artifact.nonce → i = j := by
  refine ⟨fun i c hc => acceptedAt_iff hc, fun i j c c' hc hc' hi hj hnonce => ?_⟩
  rcases Nat.lt_trichotomy i j with hlt | heq | hgt
  · exact absurd hnonce (((acceptedAt_iff hc').mp hj).2 i hlt c hc hi)
  · exact heq
  · exact absurd hnonce.symm (((acceptedAt_iff hc).mp hi).2 j hgt c' hc' hj)

end ActionLineage
