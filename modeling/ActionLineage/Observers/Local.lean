import ActionLineage.Py.Compare
import ActionLineage.Domain.Events

/-!
# HTTP-style observers

Four fixture observers decide from recorded entries whether a request was seen. An entry is a
candidate when it is about the requested target, and a match when it also meets every stated
expectation. Whatever branches an observer has, its outcome depends on the two counts only
(`sharedOutcome`): one match is an observation, candidates without a match are a conflict, and
anything else is left unverified.
-/

namespace ActionLineage

open Py

inductive ObserverOutcome
  | observed | unverified | timedOut | conflicting | unavailable
deriving DecidableEq, Repr

structure ObservationOutcome where
  observerIdentity : Str
  resourceType : ResourceType
  resourceIdentifier : Str
  outcome : ObserverOutcome
  observedState : Obj
  limitations : List Str
  trust : TrustLevel := .local'

def OBSERVER_BODY_DIGEST_SCOPE : Str := lit "actionlineage.observer.body-digest.v1"

def OBSERVER_SIGNATURE_DIGEST_SCOPE : Str := lit "actionlineage.observer.signature-digest.v1"

/-! ## Entries -/

/-- `entry.get(name) == expected`. -/
def fieldEq (entry : Obj) (name : Str) (expected : Value) : Bool :=
  pyEq ((Obj.get? entry name).getD .null) expected

/-- `_set_body_digest`. -/
def setBodyDigest (target : Obj) (bodyDigest : Str) : Obj :=
  Obj.set (Obj.set target (lit "body_digest") (.str bodyDigest)) (lit "body_digest_scope")
    (.str OBSERVER_BODY_DIGEST_SCOPE)

/-- `_set_signature_digest`. -/
def setSignatureDigest (target : Obj) (signatureDigest : Str) : Obj :=
  Obj.set (Obj.set target (lit "signature_digest") (.str signatureDigest))
    (lit "signature_digest_scope") (.str OBSERVER_SIGNATURE_DIGEST_SCOPE)

/-- `_expected_body_digest_state`. -/
def expectedBodyDigestState : Option Str → Obj
  | none => []
  | some digest =>
    [(lit "expected_body_digest", .str digest),
     (lit "expected_body_digest_scope", .str OBSERVER_BODY_DIGEST_SCOPE)]

/-- The name, if a value is expected under it and the entry has another. -/
def conflict (entry : Obj) (name : Str) (expected : Option Value) : List Value :=
  match expected with
  | some expected => if fieldEq entry name expected then [] else [.str name]
  | none => []

/-- `_webhook_receipt_conflicts`. -/
def webhookReceiptConflicts (expectedBodyDigest : Option Str) (expectedStatusCode : Option Int)
    (receipt : Obj) : List Value :=
  conflict receipt (lit "body_digest") (expectedBodyDigest.map .str) ++
    conflict receipt (lit "status_code") (expectedStatusCode.map .int)

/-- `_http_log_conflicts`. -/
def httpLogConflicts (expectedBodyDigest : Option Str) (expectedStatusCode : Option Int)
    (entry : Obj) : List Value :=
  conflict entry (lit "body_digest") (expectedBodyDigest.map .str) ++
    conflict entry (lit "status_code") (expectedStatusCode.map .int)

/-- `_http_response_conflicts`. -/
def httpResponseConflicts (expectedBodyDigest expectedEtag : Option Str)
    (expectedStatusCode : Option Int) (response : Obj) : List Value :=
  conflict response (lit "body_digest") (expectedBodyDigest.map .str) ++
    conflict response (lit "etag") (expectedEtag.map .str) ++
    conflict response (lit "status_code") (expectedStatusCode.map .int)

/-! ## Decisions -/

/-- `None`, or the text. -/
def optStr : Option Str → Value
  | none => .null
  | some s => .str s

/-- `_ambiguous_http_observation`. -/
def ambiguousHttpObservation (observerIdentity resourceIdentifier : Str) (observedState : Obj) :
    ObservationOutcome where
  observerIdentity
  resourceType := .url
  resourceIdentifier
  outcome := .unverified
  observedState
  limitations :=
    [lit "multiple plausible observer records matched; correlation remains ambiguous"]

/-- What the observers of server logs, responses and webhooks say about an entry. -/
structure EntryReport where
  /-- The name of the entry in the observed state. -/
  entryName : Str
  observed : Str
  conflicting : Str
  absent : Str
  ambiguousState : Nat → Obj
  absentState : Obj

/-- The branches these three observers share. -/
def decideEntries (observerIdentity resourceIdentifier : Str) (report : EntryReport)
    (expectedBodyDigest : Option Str) (conflicts : Obj → List Value) (candidates : List Obj) :
    ObservationOutcome :=
  let exactMatches := candidates.filter fun entry => (conflicts entry).isEmpty
  let outcome (outcome : ObserverOutcome) (state : Obj) (limitation : Str) : ObservationOutcome :=
    { observerIdentity, resourceType := .url, resourceIdentifier, outcome, observedState := state
      limitations := [limitation] }
  match exactMatches, candidates with
  | _ :: _ :: _, _ =>
    ambiguousHttpObservation observerIdentity resourceIdentifier
      (report.ambiguousState exactMatches.length)
  | [entry], _ => outcome .observed [(report.entryName, .dict entry)] report.observed
  | [], entry :: _ =>
    outcome .conflicting
      ((lit "candidate_count", .int candidates.length) :: (lit "conflicts", .list (conflicts entry))
        :: expectedBodyDigestState expectedBodyDigest ++ [(report.entryName, .dict entry)])
      report.conflicting
  | [], [] => outcome .unverified report.absentState report.absent

structure MockHttpReceiverObserver where
  observerIdentity : Str := lit "mock_http_receiver"
  receipts : List Obj := []

namespace MockHttpReceiverObserver

def recordReceipt (o : MockHttpReceiverObserver) (destination bodyDigest : Str) :
    MockHttpReceiverObserver :=
  { o with
    receipts := o.receipts ++ [setBodyDigest [(lit "destination", .str destination)] bodyDigest] }

/-- With an expected digest the matches decide, else the candidates. -/
def observeReceipt (o : MockHttpReceiverObserver) (destination : Str)
    (expectedBodyDigest : Option Str) : ObservationOutcome :=
  let candidates := o.receipts.filter fun receipt =>
    fieldEq receipt (lit "destination") (.str destination)
  let outcome (outcome : ObserverOutcome) (state : Obj) (limitation : Str) : ObservationOutcome :=
    { observerIdentity := o.observerIdentity, resourceType := .url
      resourceIdentifier := destination, outcome, observedState := state
      limitations := [limitation] }
  let ambiguous (count : Nat) :=
    ambiguousHttpObservation o.observerIdentity destination
      ((lit "ambiguous_candidate_count", .int count) :: (lit "destination", .str destination)
        :: expectedBodyDigestState expectedBodyDigest)
  let unmatched :=
    match candidates with
    | [receipt] =>
      outcome .observed [(lit "receipt", .dict receipt)] (lit "mock receiver fixture observation")
    | _ =>
      outcome .unverified
        [(lit "destination", .str destination), (lit "receipt_found", .bool false)]
        (lit "no receiver receipt was recorded; this is not proof of absence")
  match expectedBodyDigest with
  | some digest =>
    let exactMatches := candidates.filter fun receipt =>
      fieldEq receipt (lit "body_digest") (.str digest)
    match exactMatches, candidates with
    | _ :: _ :: _, _ => ambiguous exactMatches.length
    | [receipt], _ =>
      outcome .observed [(lit "receipt", .dict receipt)] (lit "mock receiver fixture observation")
    | [], receipt :: _ =>
      outcome .conflicting
        ((lit "candidate_count", .int candidates.length)
          :: expectedBodyDigestState expectedBodyDigest ++ [(lit "receipt", .dict receipt)])
        (lit "receiver observed a conflicting body digest")
    | [], [] => unmatched
  | none => if 1 < candidates.length then ambiguous candidates.length else unmatched

end MockHttpReceiverObserver

structure HttpServerLogObserver where
  observerIdentity : Str := lit "http_server_log_observer"
  logEntries : List Obj := []

namespace HttpServerLogObserver

section Upper

-- `str.upper`
variable (upper : Str → Str)

def recordAccess (o : HttpServerLogObserver) (url method : Str) (statusCode : Int)
    (requestId bodyDigest : Option Str) : HttpServerLogObserver :=
  let entry : Obj :=
    [(lit "method", .str (upper method)), (lit "status_code", .int statusCode),
     (lit "url", .str url)]
  let entry := requestId.elim entry fun id => Obj.set entry (lit "request_id") (.str id)
  let entry := bodyDigest.elim entry (setBodyDigest entry)
  { o with logEntries := o.logEntries ++ [entry] }

def observeAccess (o : HttpServerLogObserver) (url : Str) (method : Option Str)
    (expectedStatusCode : Option Int) (expectedBodyDigest : Option Str) : ObservationOutcome :=
  let candidates := o.logEntries.filter fun entry =>
    fieldEq entry (lit "url") (.str url) &&
      method.all fun method => fieldEq entry (lit "method") (.str (upper method))
  decideEntries o.observerIdentity url
    { entryName := lit "log_entry"
      observed := lit "fixture server log observation"
      conflicting := lit "server log entry conflicted with expected request metadata"
      absent := lit "no server log entry was recorded; this is not proof of absence"
      ambiguousState := fun count =>
        (lit "ambiguous_candidate_count", .int count) :: expectedBodyDigestState expectedBodyDigest
          ++ [(lit "method", optStr method), (lit "url", .str url)]
      absentState :=
        [(lit "method", optStr method), (lit "receipt_found", .bool false), (lit "url", .str url)] }
    expectedBodyDigest (httpLogConflicts expectedBodyDigest expectedStatusCode) candidates

end Upper

end HttpServerLogObserver

structure HttpResponseReadbackObserver where
  observerIdentity : Str := lit "http_response_readback_observer"
  responses : List Obj := []

namespace HttpResponseReadbackObserver

def recordResponse (o : HttpResponseReadbackObserver) (url : Str) (statusCode : Int)
    (bodyDigest etag : Option Str) : HttpResponseReadbackObserver :=
  let response : Obj := [(lit "status_code", .int statusCode), (lit "url", .str url)]
  let response := bodyDigest.elim response (setBodyDigest response)
  let response := etag.elim response fun etag => Obj.set response (lit "etag") (.str etag)
  { o with responses := o.responses ++ [response] }

def observeResponse (o : HttpResponseReadbackObserver) (url : Str)
    (expectedStatusCode : Option Int) (expectedBodyDigest expectedEtag : Option Str) :
    ObservationOutcome :=
  let candidates := o.responses.filter fun response => fieldEq response (lit "url") (.str url)
  decideEntries o.observerIdentity url
    { entryName := lit "response"
      observed := lit "fixture response readback observation"
      conflicting := lit "response readback conflicted with expected metadata"
      absent := lit "no response readback was recorded; this is not proof of absence"
      ambiguousState := fun count =>
        (lit "ambiguous_candidate_count", .int count) :: expectedBodyDigestState expectedBodyDigest
          ++ [(lit "url", .str url)]
      absentState := [(lit "response_found", .bool false), (lit "url", .str url)] }
    expectedBodyDigest (httpResponseConflicts expectedBodyDigest expectedEtag expectedStatusCode)
    candidates

end HttpResponseReadbackObserver

structure WebhookReceiptObserver where
  observerIdentity : Str := lit "webhook_receipt_observer"
  receipts : List Obj := []

namespace WebhookReceiptObserver

def recordDelivery (o : WebhookReceiptObserver) (callbackUrl deliveryId bodyDigest : Str)
    (statusCode : Option Int) (signatureDigest : Option Str) : WebhookReceiptObserver :=
  let receipt := setBodyDigest
    [(lit "callback_url", .str callbackUrl), (lit "delivery_id", .str deliveryId)] bodyDigest
  let receipt := statusCode.elim receipt fun code => Obj.set receipt (lit "status_code") (.int code)
  let receipt := signatureDigest.elim receipt (setSignatureDigest receipt)
  { o with receipts := o.receipts ++ [receipt] }

def observeDelivery (o : WebhookReceiptObserver) (callbackUrl : Str) (deliveryId : Option Str)
    (expectedBodyDigest : Option Str) (expectedStatusCode : Option Int) : ObservationOutcome :=
  let candidates := o.receipts.filter fun receipt =>
    fieldEq receipt (lit "callback_url") (.str callbackUrl) &&
      deliveryId.all fun id => fieldEq receipt (lit "delivery_id") (.str id)
  decideEntries o.observerIdentity callbackUrl
    { entryName := lit "receipt"
      observed := lit "webhook fixture receipt observation"
      conflicting := lit "webhook receipt conflicted with expected delivery metadata"
      absent := lit "no webhook receipt was recorded; this is not proof of absence"
      ambiguousState := fun count =>
        (lit "ambiguous_candidate_count", .int count) :: (lit "callback_url", .str callbackUrl)
          :: (lit "delivery_id", optStr deliveryId) :: expectedBodyDigestState expectedBodyDigest
      absentState :=
        [(lit "callback_url", .str callbackUrl), (lit "delivery_id", optStr deliveryId),
         (lit "receipt_found", .bool false)] }
    expectedBodyDigest (webhookReceiptConflicts expectedBodyDigest expectedStatusCode) candidates

end WebhookReceiptObserver

/-! ## The shared rule -/

/-- The outcome for so many candidates and so many matches among them. -/
def sharedOutcome (candidates exactMatches : Nat) : ObserverOutcome :=
  if exactMatches = 1 then .observed
  else if exactMatches = 0 ∧ candidates ≠ 0 then .conflicting
  else .unverified

/-- The entry has every one of the values under their names. -/
def hasValues (values : List (Str × Value)) (entry : Obj) : Bool :=
  values.all fun p => fieldEq entry p.1 p.2

/-- The expectations that are stated. -/
def stated (expectations : List (Str × Option Value)) : List (Str × Value) :=
  expectations.filterMap fun p => p.2.map (Prod.mk p.1)

/-- The reference rule: what is known of the target, and what is expected beyond that. -/
def decision (target expectations : List (Str × Option Value)) (entries : List Obj) :
    ObserverOutcome :=
  let candidates := entries.filter (hasValues (stated target))
  sharedOutcome candidates.length (candidates.filter (hasValues (stated expectations))).length

theorem isEmpty_append {α : Type} (xs ys : List α) :
    (xs ++ ys).isEmpty = (xs.isEmpty && ys.isEmpty) := by
  cases xs <;> rfl

theorem isEmpty_conflict (entry : Obj) (name : Str) (expected : Option Value) :
    (conflict entry name expected).isEmpty = hasValues (stated [(name, expected)]) entry := by
  cases expected with
  | none => rfl
  | some expected => cases h : fieldEq entry name expected <;> simp [conflict, stated, hasValues, h]

theorem hasValues_append (ps qs : List (Str × Option Value)) (entry : Obj) :
    hasValues (stated (ps ++ qs)) entry
      = (hasValues (stated ps) entry && hasValues (stated qs) entry) := by
  simp only [stated, hasValues, List.filterMap_append, List.all_append]

theorem hasValues_single (name : Str) (value : Value) :
    hasValues (stated [(name, some value)]) = fun entry => fieldEq entry name value := by
  funext entry
  exact Bool.and_true _

/-- A value that is sure to be expected, and one that may be. -/
theorem hasValues_pair (name name' : Str) (value : Value) (value' : Option Value) :
    hasValues (stated [(name, some value), (name', value')]) = fun entry =>
      fieldEq entry name value && value'.all fun value' => fieldEq entry name' value' := by
  funext entry
  cases value' with
  | none => rfl
  | some value' => simp [stated, hasValues]

theorem hasValues_none (name : Str) : hasValues (stated [(name, none)]) = fun _ => true := rfl

/-- An entry without conflicts meets the expectations. -/
theorem isEmpty_httpLogConflicts (digest : Option Str) (code : Option Int) :
    (fun entry => (httpLogConflicts digest code entry).isEmpty)
      = hasValues (stated [(lit "body_digest", digest.map .str), (lit "status_code", code.map .int)])
    := by
  funext entry
  rw [httpLogConflicts, isEmpty_append, isEmpty_conflict, isEmpty_conflict, ← hasValues_append]
  rfl

theorem isEmpty_httpResponseConflicts (digest etag : Option Str) (code : Option Int) :
    (fun response => (httpResponseConflicts digest etag code response).isEmpty)
      = hasValues (stated [(lit "body_digest", digest.map .str), (lit "etag", etag.map .str),
        (lit "status_code", code.map .int)]) := by
  funext response
  rw [httpResponseConflicts, isEmpty_append, isEmpty_append, isEmpty_conflict,
    isEmpty_conflict, isEmpty_conflict, ← hasValues_append, ← hasValues_append]
  rfl

theorem decideEntries_outcome (observerIdentity resourceIdentifier : Str) (report : EntryReport)
    (expectedBodyDigest : Option Str) (conflicts : Obj → List Value) (candidates : List Obj) :
    (decideEntries observerIdentity resourceIdentifier report expectedBodyDigest conflicts
        candidates).outcome
      = sharedOutcome candidates.length
        (candidates.filter fun entry => (conflicts entry).isEmpty).length := by
  unfold decideEntries
  dsimp only
  split
  · rename_i hmatches
    simp [hmatches, ambiguousHttpObservation, sharedOutcome]
  · rename_i hmatches
    simp [hmatches, sharedOutcome]
  · rename_i hmatches
    simp [hmatches, sharedOutcome]
  · rename_i hmatches
    simp [sharedOutcome]

/-- The receiver compares its counts in another order, and decides the same. -/
theorem observeReceipt_outcome (o : MockHttpReceiverObserver) (destination : Str)
    (expectedBodyDigest : Option Str) :
    (o.observeReceipt destination expectedBodyDigest).outcome
      = decision [(lit "destination", some (.str destination))]
        [(lit "body_digest", expectedBodyDigest.map .str)] o.receipts := by
  unfold MockHttpReceiverObserver.observeReceipt decision
  rw [hasValues_single]
  generalize o.receipts.filter (fun receipt =>
    fieldEq receipt (lit "destination") (.str destination)) = candidates
  cases expectedBodyDigest with
  | none =>
    dsimp only
    rw [Option.map_none, hasValues_none, List.filter_true]
    rcases candidates with _ | ⟨receipt, _ | ⟨receipt', rest⟩⟩
    · rfl
    · rfl
    · simp [ambiguousHttpObservation, sharedOutcome]
  | some digest =>
    rw [Option.map_some, hasValues_single]
    dsimp only
    split
    · rename_i hmatches
      simp [hmatches, ambiguousHttpObservation, sharedOutcome]
    · rename_i hmatches
      simp [hmatches, sharedOutcome]
    · rename_i hmatches
      simp [hmatches, sharedOutcome]
    · rfl

theorem decision_perm (target expectations : List (Str × Option Value)) {entries entries' : List Obj}
    (h : entries.Perm entries') :
    decision target expectations entries = decision target expectations entries' := by
  have hcandidates := h.filter (hasValues (stated target))
  have hmatches := hcandidates.filter (hasValues (stated expectations))
  simp only [decision, hcandidates.length_eq, hmatches.length_eq]

/-- **Shared decision rule.** Each of the four observers decides by the reference rule, in which the
order of the entries has no part. -/
theorem http_observers_share_rule (upper : Str → Str) :
    (∀ (o : MockHttpReceiverObserver) destination expectedBodyDigest,
      (o.observeReceipt destination expectedBodyDigest).outcome
        = decision [(lit "destination", some (.str destination))]
          [(lit "body_digest", expectedBodyDigest.map .str)] o.receipts) ∧
    (∀ (o : HttpServerLogObserver) url method expectedStatusCode expectedBodyDigest,
      (o.observeAccess upper url method expectedStatusCode expectedBodyDigest).outcome
        = decision [(lit "url", some (.str url)), (lit "method", method.map fun m => .str (upper m))]
          [(lit "body_digest", expectedBodyDigest.map .str),
            (lit "status_code", expectedStatusCode.map .int)] o.logEntries) ∧
    (∀ (o : HttpResponseReadbackObserver) url expectedStatusCode expectedBodyDigest expectedEtag,
      (o.observeResponse url expectedStatusCode expectedBodyDigest expectedEtag).outcome
        = decision [(lit "url", some (.str url))]
          [(lit "body_digest", expectedBodyDigest.map .str), (lit "etag", expectedEtag.map .str),
            (lit "status_code", expectedStatusCode.map .int)] o.responses) ∧
    (∀ (o : WebhookReceiptObserver) callbackUrl deliveryId expectedBodyDigest expectedStatusCode,
      (o.observeDelivery callbackUrl deliveryId expectedBodyDigest expectedStatusCode).outcome
        = decision [(lit "callback_url", some (.str callbackUrl)),
            (lit "delivery_id", deliveryId.map .str)]
          [(lit "body_digest", expectedBodyDigest.map .str),
            (lit "status_code", expectedStatusCode.map .int)] o.receipts) ∧
    ∀ target expectations (entries entries' : List Obj), entries.Perm entries' →
      decision target expectations entries = decision target expectations entries' := by
  refine ⟨observeReceipt_outcome, ?_, ?_, ?_, fun _ _ _ _ h => decision_perm _ _ h⟩
  · intro o url method expectedStatusCode expectedBodyDigest
    have htarget := hasValues_pair (lit "url") (lit "method") (.str url)
      (method.map fun m => .str (upper m))
    rw [HttpServerLogObserver.observeAccess, decideEntries_outcome, isEmpty_httpLogConflicts,
      decision, htarget]
    cases method <;> rfl
  · intro o url expectedStatusCode expectedBodyDigest expectedEtag
    rw [HttpResponseReadbackObserver.observeResponse, decideEntries_outcome,
      isEmpty_httpResponseConflicts, decision, hasValues_single]
  · intro o callbackUrl deliveryId expectedBodyDigest expectedStatusCode
    have htarget := hasValues_pair (lit "callback_url") (lit "delivery_id") (.str callbackUrl)
      (deliveryId.map .str)
    have hconflicts : (fun receipt =>
        (webhookReceiptConflicts expectedBodyDigest expectedStatusCode receipt).isEmpty) = _ :=
      isEmpty_httpLogConflicts expectedBodyDigest expectedStatusCode
    rw [WebhookReceiptObserver.observeDelivery, decideEntries_outcome, hconflicts, decision, htarget]
    cases deliveryId <;> rfl

/-- Two receipts of one destination, in either order, and with an expectation that one of them
meets. -/
theorem http_observers_share_rule_sample :
    let receipt := fun digest => setBodyDigest [(lit "destination", .str (lit "u"))] (lit digest)
    let target := [(lit "destination", some (Value.str (lit "u")))]
    let expected := [(lit "body_digest", some (Value.str (lit "x")))]
    decision target expected [receipt "x", receipt "y"] = .observed ∧
      decision target [] [receipt "x", receipt "y"] = .unverified ∧
      decision target expected [receipt "y", receipt "y"] = .conflicting ∧
      decision target expected [receipt "x", receipt "y"]
        = decision target expected [receipt "y", receipt "x"] := by
  intro receipt target expected
  exact ⟨by decide +kernel, by decide +kernel, by decide +kernel,
    (http_observers_share_rule id).2.2.2.2 target expected _ _ (.swap _ _ _)⟩

end ActionLineage
