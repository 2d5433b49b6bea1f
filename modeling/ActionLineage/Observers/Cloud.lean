import ActionLineage.Observers.Local
import ActionLineage.Detection.Predicates
import ActionLineage.Reference
import ActionLineage.Py.Path

/-!
# Cloud observers

Three observers read one audit record of a cloud provider and decide whether it is evidence of a
write to the requested object. AWS compares the two names of the record. GCP only looks at the end
of the resource name, and Azure only for the names somewhere in the resource id, so that the record
of another object can count (`cloud_attribution_iff`).
-/

namespace ActionLineage

open Py

/-! ## Reading a record -/

/-- `_object`. -/
def objectOf : Value → Obj
  | .dict kvs => kvs
  | _ => []

/-- `_string`. -/
def stringOf : Value → Str
  | .str s => s
  | _ => []

/-- `record.get(name)`. -/
def getValue (record : Obj) (name : String) : Value := (Obj.get? record (lit name)).getD .null

/-- `_operation_name`. -/
def operationNameOf : Value → Str
  | .str s => s
  | .dict kvs => stringOf (getValue kvs "value")
  | _ => []

mutual

/-- `_json_value`. -/
def jsonValueOf : Value → Value
  | .bytes b => .str (reprBytes b)
  | .list xs => .list (jsonValuesOf xs)
  | .dict kvs => .dict (jsonMembersOf kvs)
  | v => v

def jsonValuesOf : List Value → List Value
  | [] => []
  | x :: xs => jsonValueOf x :: jsonValuesOf xs

def jsonMembersOf : Obj → Obj
  | [] => []
  | (k, v) :: kvs => (k, jsonValueOf v) :: jsonMembersOf kvs

end

/-- `_json_object`. -/
def jsonObjectOf (kvs : Obj) : Obj :=
  jsonMembersOf (kvs.filter fun p => match p.2 with
    | .null => false
    | _ => true)

/-- `_observed`, `_conflicting` and `_unverified`. -/
def cloudOutcome (observerIdentity identifier : Str) (outcome : ObserverOutcome) (state : Obj)
    (limitation : Str) : ObservationOutcome where
  observerIdentity
  resourceType := .cloudResource
  resourceIdentifier := identifier
  outcome
  observedState := state
  limitations := [limitation]
  trust := .external

/-- The end of each observer: what it says of a record, and of no record. -/
def observeCloudRecord (observerIdentity identifier provider : Str)
    (found : Option (Bool × Obj)) : ObservationOutcome :=
  match found with
  | none =>
    cloudOutcome observerIdentity identifier .unverified
      [(lit "provider", .str provider), (lit "record_found", .bool false)]
      (lit "no cloud audit fixture was recorded; this is not evidence of absence")
  | some (true, state) =>
    cloudOutcome observerIdentity identifier .observed (jsonObjectOf state)
      (provider ++ lit " fixture audit-log observation only")
  | some (false, state) =>
    cloudOutcome observerIdentity identifier .conflicting (jsonObjectOf state)
      (provider ++ lit " fixture did not match the expected cloud resource")

/-! ## The observers -/

section Observers

variable (P : Platform)

/-- `str(record.get("eventName", ""))`. -/
def awsEventName (record : Obj) : Except PyError Str :=
  (strValue P.isPrintableBeyondAscii ((Obj.get? record (lit "eventName")).getD (.str []))).elim
    (.error digitLimit) .ok

def isAwsWrite (record : Obj) (eventName : Str) : Bool :=
  fieldEq record (lit "eventSource") (.str (lit "s3.amazonaws.com")) &&
    [lit "CompleteMultipartUpload", lit "CopyObject", lit "PutObject"].contains eventName

/-- `AwsCloudTrailObserver.observe_s3_object_write`. -/
def observeS3ObjectWrite (observerIdentity : Str) (record : Option Obj) (bucket key : Str) :
    Except PyError ObservationOutcome := do
  let identifier := lit "aws:s3://" ++ bucket ++ SEP :: key
  match record with
  | none => .ok (observeCloudRecord observerIdentity identifier (lit "aws") none)
  | some record =>
    let request := objectOf (getValue record "requestParameters")
    let eventName ← awsEventName P record
    let observedBucket := stringOf (getValue request "bucketName")
    let observedKey := stringOf (getValue request "key")
    let observed := isAwsWrite record eventName && observedBucket == bucket && observedKey == key
    .ok (observeCloudRecord observerIdentity identifier (lit "aws") (some (observed,
      [(lit "provider", .str (lit "aws")), (lit "event_name", .str eventName),
       (lit "event_source", getValue record "eventSource"), (lit "bucket", .str observedBucket),
       (lit "key", .str observedKey), (lit "event_id", getValue record "eventID"),
       (lit "aws_region", getValue record "awsRegion")])))

/-- `_string(proto_payload.get("resourceName")) or _string(record.get("resourceName"))`. -/
def gcpResourceName (record : Obj) : Str :=
  let inner := stringOf (getValue (objectOf (getValue record "protoPayload")) "resourceName")
  if inner ≠ [] then inner else stringOf (getValue record "resourceName")

def isGcpWrite (record : Obj) : Bool :=
  let protoPayload := objectOf (getValue record "protoPayload")
  fieldEq protoPayload (lit "serviceName") (.str (lit "storage.googleapis.com")) &&
    [lit "storage.objects.create", lit "storage.objects.update"].contains
      (stringOf (getValue protoPayload "methodName"))

/-- `f"/buckets/{bucket}/objects/{object_name}"`. -/
def gcpSuffix (bucket objectName : Str) : Str :=
  lit "/buckets/" ++ bucket ++ lit "/objects/" ++ objectName

/-- `GcpAuditLogObserver.observe_storage_object_write`. -/
def observeStorageObjectWrite (observerIdentity : Str) (record : Option Obj)
    (bucket objectName : Str) : ObservationOutcome :=
  let identifier := lit "gcp:gs://" ++ bucket ++ SEP :: objectName
  observeCloudRecord observerIdentity identifier (lit "gcp") <| record.map fun record =>
    let protoPayload := objectOf (getValue record "protoPayload")
    (isGcpWrite record && (gcpSuffix bucket objectName).isSuffixOf (gcpResourceName record),
      [(lit "provider", .str (lit "gcp")),
       (lit "method_name", .str (stringOf (getValue protoPayload "methodName"))),
       (lit "service_name", getValue protoPayload "serviceName"),
       (lit "resource_name", .str (gcpResourceName record)),
       (lit "insert_id", getValue record "insertId")])

/-- `resource_id.lower()`. -/
def azureResourceId (record : Obj) : Str := P.lower (stringOf (getValue record "resourceId"))

def isAzureWrite (record : Obj) : Bool :=
  (lit "/write").isSuffixOf (operationNameOf (getValue record "operationName"))

/-- `AzureActivityObserver.observe_blob_write`. -/
def observeBlobWrite (observerIdentity : Str) (record : Option Obj) (account container blob : Str) :
    ObservationOutcome :=
  let identifier := lit "azure:blob://" ++ account ++ SEP :: container ++ SEP :: blob
  observeCloudRecord observerIdentity identifier (lit "azure") <| record.map fun record =>
    let expectedParts := [P.lower account, P.lower container, P.lower blob]
    (isAzureWrite record && expectedParts.all fun part => decide (part <:+: azureResourceId P record),
      [(lit "provider", .str (lit "azure")),
       (lit "operation_name", .str (operationNameOf (getValue record "operationName"))),
       (lit "resource_id", .str (stringOf (getValue record "resourceId"))),
       (lit "event_id", getValue record "eventDataId"), (lit "status", getValue record "status")])

end Observers

/-! ## The object a record is about -/

/-- The segments of a resource name. -/
def segments (name : Str) : List Str := name.splitOn SEP

/-- The segments joined again. -/
def joinSegments (parts : List Str) : Str := [SEP].intercalate parts

/-- The segment behind the first one of this name, and what follows it. -/
def segmentAfter (name : Str) (parts : List Str) : Option (Str × List Str) :=
  match parts.dropWhile fun part => part ≠ name with
  | _ :: part :: rest => some (part, rest)
  | _ => none

/-- The text names of the request, bucket and key. -/
def awsObject (record : Obj) : Option (Str × Str) :=
  let request := objectOf (getValue record "requestParameters")
  match getValue request "bucketName", getValue request "key" with
  | .str bucket, .str key => some (bucket, key)
  | _, _ => none

/-- `…/buckets/<bucket>/objects/<object>`; an object name may have separators. -/
def gcpObject (resourceName : Str) : Option (Str × Str) :=
  match segmentAfter (lit "buckets") (segments resourceName) with
  | some (bucket, kind :: first :: rest) =>
    if kind = lit "objects" then some (bucket, joinSegments (first :: rest)) else none
  | _ => none

/-- `…/storageaccounts/<account>/…/containers/<container>/blobs/<blob>` in lower case; a blob name
may have separators. -/
def azureBlob (resourceId : Str) : Option (Str × Str × Str) := do
  let (account, rest) ← segmentAfter (lit "storageaccounts") (segments resourceId)
  let (container, rest) ← segmentAfter (lit "containers") rest
  match rest with
  | kind :: first :: rest =>
    if kind = lit "blobs" then some (account, container, joinSegments (first :: rest)) else none
  | _ => none

/-! ## Attribution -/

theorem observeCloudRecord_observed {observerIdentity identifier provider : Str}
    {found : Option (Bool × Obj)} :
    (observeCloudRecord observerIdentity identifier provider found).outcome = .observed ↔
      ∃ state, found = some (true, state) := by
  rcases found with _ | ⟨_ | _, state⟩ <;> simp [observeCloudRecord, cloudOutcome]

/-! ### Segments -/

theorem segments_append (a b : Str) : segments (a ++ SEP :: b) = segments a ++ segments b :=
  List.splitOn_append_cons_self a b

theorem segments_eq_singleton {part : Str} (h : SEP ∉ part) : segments part = [part] :=
  List.splitOn_eq_singleton h

theorem joinSegments_segments (name : Str) : joinSegments (segments name) = name :=
  List.intercalate_splitOn SEP

theorem segments_joinSegments {parts : List Str} (hparts : ∀ part ∈ parts, SEP ∉ part)
    (hne : parts ≠ []) : segments (joinSegments parts) = parts :=
  List.splitOn_intercalate SEP hparts hne

theorem segmentAfter_eq_some {name part : Str} {parts rest : List Str} :
    segmentAfter name parts = some (part, rest) ↔
      ∃ before, parts = before ++ name :: part :: rest ∧ name ∉ before := by
  induction parts with
  | nil => simp [segmentAfter]
  | cons x parts ih =>
    by_cases hx : x = name
    · subst hx
      have hdrop : segmentAfter x (x :: parts) = match x :: parts with
          | _ :: part :: rest => some (part, rest)
          | _ => none := by
        rw [segmentAfter, List.dropWhile_cons_of_neg (by simp)]
      rw [hdrop]
      constructor
      · intro h
        rcases parts with _ | ⟨y, parts⟩
        · cases h
        · obtain ⟨rfl, rfl⟩ := Prod.mk.inj (Option.some.inj h)
          exact ⟨[], rfl, List.not_mem_nil⟩
      · rintro ⟨before, hparts, hbefore⟩
        rcases before with _ | ⟨y, before⟩
        · rw [List.nil_append] at hparts
          rw [(List.cons.inj hparts).2]
        · exact absurd (List.cons.inj hparts).1 fun h => hbefore (h ▸ List.mem_cons_self)
    · have hskip : segmentAfter name (x :: parts) = segmentAfter name parts := by
        rw [segmentAfter, List.dropWhile_cons_of_pos (by simpa using hx), segmentAfter]
      rw [hskip, ih]
      constructor
      · rintro ⟨before, rfl, hbefore⟩
        exact ⟨x :: before, rfl, by simp [hbefore, Ne.symm hx]⟩
      · rintro ⟨before, hparts, hbefore⟩
        rcases before with _ | ⟨y, before⟩
        · exact absurd (List.cons.inj hparts).1 hx
        · exact ⟨before, (List.cons.inj hparts).2, fun h => hbefore (List.mem_cons_of_mem _ h)⟩

/-! ### GCP -/

theorem gcpObject_eq_some {name bucket objectName : Str} :
    gcpObject name = some (bucket, objectName) ↔
      ∃ before, segments name
          = before ++ lit "buckets" :: bucket :: lit "objects" :: segments objectName ∧
        lit "buckets" ∉ before := by
  unfold gcpObject
  constructor
  · intro h
    split at h
    · rename_i b kind first rest hafter
      split_ifs at h with hkind
      obtain ⟨rfl, rfl⟩ := Prod.mk.inj (Option.some.inj h)
      obtain ⟨before, hparts, hbefore⟩ := segmentAfter_eq_some.mp hafter
      refine ⟨before, ?_, hbefore⟩
      rw [hparts, hkind, segments_joinSegments ?_ (List.cons_ne_nil _ _)]
      intro part hpart
      refine notMem_of_mem_splitOn (s := name) ?_
      change part ∈ segments name
      rw [hparts]
      simp only [List.mem_append, List.mem_cons] at hpart ⊢
      tauto
    · cases h
  · rintro ⟨before, hparts, hbefore⟩
    obtain ⟨first, rest, hobject⟩ := List.exists_cons_of_ne_nil
      (List.splitOn_ne_nil SEP objectName)
    change segments objectName = first :: rest at hobject
    rw [segmentAfter_eq_some.mpr ⟨before, hparts, hbefore⟩, hobject]
    simp only [if_true, ← hobject, joinSegments_segments]

/-- The requested object is named behind a prefix without the segment, and by a bucket that is one
segment. -/
theorem gcpObject_suffix {pre bucket objectName : Str} :
    gcpObject (pre ++ gcpSuffix bucket objectName) = some (bucket, objectName) ↔
      lit "buckets" ∉ segments pre ∧ SEP ∉ bucket := by
  have hsegments : segments (pre ++ gcpSuffix bucket objectName) = segments pre
      ++ lit "buckets" :: (segments bucket ++ lit "objects" :: segments objectName) := by
    have htext : pre ++ gcpSuffix bucket objectName = pre ++ SEP :: (lit "buckets" ++ SEP ::
        (bucket ++ SEP :: (lit "objects" ++ SEP :: objectName))) := by
      have hbuckets : lit "/buckets/" = SEP :: (lit "buckets" ++ [SEP]) := by decide
      have hobjects : lit "/objects/" = SEP :: (lit "objects" ++ [SEP]) := by decide
      simp [gcpSuffix, hbuckets, hobjects]
    rw [htext, segments_append, segments_append, segments_append, segments_append,
      segments_eq_singleton (by decide : SEP ∉ lit "buckets"),
      segments_eq_singleton (by decide : SEP ∉ lit "objects")]
    rfl
  rw [gcpObject_eq_some, hsegments]
  constructor
  · rintro ⟨before, hparts, hbefore⟩
    have hbucketLength := List.length_pos_of_ne_nil (List.splitOn_ne_nil SEP bucket)
    have hlength := congrArg List.length hparts
    simp only [List.length_append, List.length_cons] at hlength
    -- the first segment of that name is the one behind the prefix
    have hprefix : segments pre <+: before := by
      refine List.prefix_of_prefix_length_le
        (hparts ▸ List.prefix_append _ _) (List.prefix_append _ _) ?_
      change 0 < (segments bucket).length at hbucketLength
      omega
    obtain ⟨between, rfl⟩ := hprefix
    rw [List.append_assoc] at hparts
    have hrest := List.append_cancel_left hparts
    rcases between with _ | ⟨x, between⟩
    · refine ⟨by simpa using hbefore, ?_⟩
      have hbucket := (List.cons.inj hrest).2
      have hone : (segments bucket).length = 1 := by
        have h := congrArg List.length hbucket
        simp only [List.length_append, List.length_cons] at h
        omega
      obtain ⟨part, hpart⟩ := List.length_eq_one_iff.mp hone
      rw [hpart] at hbucket
      have hsame : part = bucket := (List.cons.inj hbucket).1
      rw [hsame] at hpart
      have hmem : bucket ∈ bucket.splitOn SEP := by
        change bucket ∈ segments bucket
        rw [hpart]
        exact List.mem_singleton_self _
      exact notMem_of_mem_splitOn hmem
    · refine absurd ?_ hbefore
      rw [(List.cons.inj hrest).1]
      simp
  · rintro ⟨hpre, hbucket⟩
    exact ⟨segments pre, by rw [segments_eq_singleton hbucket]; rfl, hpre⟩

/-! ### Azure -/

theorem azureBlob_eq_some {resourceId account container blob : Str} :
    azureBlob resourceId = some (account, container, blob) ↔
      ∃ before between, segments resourceId
          = before ++ lit "storageaccounts" :: account :: (between
            ++ lit "containers" :: container :: lit "blobs" :: segments blob) ∧
        lit "storageaccounts" ∉ before ∧ lit "containers" ∉ between := by
  unfold azureBlob
  constructor
  · intro h
    obtain ⟨⟨a, rest⟩, hafter, hcontainer⟩ := Option.bind_eq_some_iff.mp h
    obtain ⟨⟨c, rest'⟩, hafter', hblob⟩ := Option.bind_eq_some_iff.mp hcontainer
    obtain ⟨before, hparts, hbefore⟩ := segmentAfter_eq_some.mp hafter
    obtain ⟨between, rfl, hbetween⟩ := segmentAfter_eq_some.mp hafter'
    dsimp only at hblob
    split at hblob
    · rename_i kind first rest
      split_ifs at hblob with hkind
      obtain ⟨rfl, hnames⟩ := Prod.mk.inj (Option.some.inj hblob)
      obtain ⟨rfl, rfl⟩ := Prod.mk.inj hnames
      refine ⟨before, between, ?_, hbefore, hbetween⟩
      rw [hparts, hkind, segments_joinSegments ?_ (List.cons_ne_nil _ _)]
      intro part hpart
      refine notMem_of_mem_splitOn (s := resourceId) ?_
      change part ∈ segments resourceId
      rw [hparts]
      simp only [List.mem_append, List.mem_cons] at hpart ⊢
      tauto
    · cases hblob
  · rintro ⟨before, between, hparts, hbefore, hbetween⟩
    obtain ⟨first, rest, hblob⟩ := List.exists_cons_of_ne_nil (List.splitOn_ne_nil SEP blob)
    change segments blob = first :: rest at hblob
    rw [segmentAfter_eq_some.mpr ⟨before, hparts, hbefore⟩]
    simp only [Option.bind_eq_bind, Option.bind_some]
    rw [segmentAfter_eq_some.mpr ⟨between, rfl, hbetween⟩]
    simp only [Option.bind_some, hblob, if_true]
    rw [← hblob, joinSegments_segments]

/-! ### All three -/

/-- Bucket and key of the request are texts. -/
def HasAwsNames (record : Obj) : Prop :=
  let request := objectOf (getValue record "requestParameters")
  (∃ s, getValue request "bucketName" = .str s) ∧ ∃ s, getValue request "key" = .str s

/-- Bucket and key of the request, read as empty where there is no text. -/
def readsAwsNames (record : Obj) (bucket key : Str) : Prop :=
  let request := objectOf (getValue record "requestParameters")
  stringOf (getValue request "bucketName") = bucket ∧ stringOf (getValue request "key") = key

theorem awsObject_eq_some {record : Obj} {bucket key : Str} :
    awsObject record = some (bucket, key) ↔
      HasAwsNames record ∧ readsAwsNames record bucket key := by
  unfold awsObject HasAwsNames readsAwsNames
  dsimp only
  generalize getValue (objectOf (getValue record "requestParameters")) "bucketName" = b
  generalize getValue (objectOf (getValue record "requestParameters")) "key" = k
  cases b with
  | str b =>
    cases k with
    | str k => simp [stringOf]
    | _ => simp
  | _ => simp

theorem awsObserved_iff {P : Platform} {observerIdentity : Str} {record : Obj} {bucket key : Str} :
    (∃ o, observeS3ObjectWrite P observerIdentity (some record) bucket key = .ok o ∧
        o.outcome = .observed) ↔
      ∃ eventName, awsEventName P record = .ok eventName ∧ isAwsWrite record eventName = true ∧
        readsAwsNames record bucket key := by
  unfold observeS3ObjectWrite readsAwsNames
  cases hname : awsEventName P record with
  | error exc => simp [hname, bind, Except.bind]
  | ok eventName => simp [hname, bind, Except.bind, observeCloudRecord_observed, and_assoc]

/-- **Attribution.** AWS attributes only the requested object, unless a name is asked for that is
empty. GCP does unless the suffix hides another bucket before it or a separator in the bucket, and
Azure does when the names it finds in the id are its segments. -/
theorem cloud_attribution_iff (P : Platform) (observerIdentity : Str) (record : Obj) :
    (∀ bucket key,
      (∀ o, observeS3ObjectWrite P observerIdentity (some record) bucket key = .ok o →
          o.outcome = .observed → awsObject record = some (bucket, key)) ↔
        ∀ eventName, awsEventName P record = .ok eventName → isAwsWrite record eventName = true →
          readsAwsNames record bucket key → HasAwsNames record) ∧
    (∀ bucket objectName,
      ((observeStorageObjectWrite observerIdentity (some record) bucket objectName).outcome
          = .observed → gcpObject (gcpResourceName record) = some (bucket, objectName)) ↔
        (isGcpWrite record = true → ∀ pre, gcpResourceName record = pre ++ gcpSuffix bucket objectName →
          lit "buckets" ∉ segments pre ∧ SEP ∉ bucket)) ∧
    ∀ account container blob,
      ((observeBlobWrite P observerIdentity (some record) account container blob).outcome
          = .observed → azureBlob (azureResourceId P record)
            = some (P.lower account, P.lower container, P.lower blob)) ↔
        (isAzureWrite record = true →
          (∀ part ∈ [account, container, blob], P.lower part <:+: azureResourceId P record) →
          ∃ before between, segments (azureResourceId P record)
              = before ++ lit "storageaccounts" :: P.lower account :: (between
                ++ lit "containers" :: P.lower container :: lit "blobs" :: segments (P.lower blob)) ∧
            lit "storageaccounts" ∉ before ∧ lit "containers" ∉ between) := by
  refine ⟨fun bucket key => ?_, fun bucket objectName => ?_, fun account container blob => ?_⟩
  · constructor
    · intro h eventName hname hwrite hreads
      obtain ⟨o, ho, hobserved⟩ := (@awsObserved_iff P observerIdentity _ _ _).mpr
        ⟨eventName, hname, hwrite, hreads⟩
      exact (awsObject_eq_some.mp (h o ho hobserved)).1
    · intro h o ho hobserved
      obtain ⟨eventName, hname, hwrite, hreads⟩ := awsObserved_iff.mp ⟨o, ho, hobserved⟩
      exact awsObject_eq_some.mpr ⟨h eventName hname hwrite hreads, hreads⟩
  · rw [observeStorageObjectWrite, observeCloudRecord_observed]
    constructor
    · intro h hwrite pre hpre
      refine gcpObject_suffix.mp (hpre ▸ h ?_)
      simp [hwrite, hpre]
    · rintro h ⟨state, hstate⟩
      simp only [Option.map_some, Option.some.injEq, Prod.mk.injEq, Bool.and_eq_true,
        List.isSuffixOf_iff_suffix] at hstate
      obtain ⟨⟨hwrite, pre, hpre⟩, -⟩ := hstate
      rw [← hpre]
      exact gcpObject_suffix.mpr (h hwrite pre hpre.symm)
  · rw [observeBlobWrite, observeCloudRecord_observed, azureBlob_eq_some]
    constructor
    · intro h hwrite hparts
      exact h (by simpa [hwrite] using hparts)
    · rintro h ⟨state, hstate⟩
      simp only [Option.map_some, Option.some.injEq, Prod.mk.injEq, Bool.and_eq_true] at hstate
      exact h hstate.1.1 (by simpa using hstate.1.2)

/-- A storage write with the resource name. -/
def gcpRecord (resourceName : Str) : Obj :=
  [(lit "protoPayload", .dict
    [(lit "serviceName", .str (lit "storage.googleapis.com")),
     (lit "methodName", .str (lit "storage.objects.create")),
     (lit "resourceName", .str resourceName)])]

/-- A blob write with the resource id. -/
def azureRecord (resourceId : Str) : Obj :=
  [(lit "operationName", .str (lit "blobs/write")), (lit "resourceId", .str resourceId)]

theorem cloud_attribution_sample :
    (observeStorageObjectWrite (lit "gcp")
        (some (gcpRecord (lit "projects/_/buckets/b/objects/o"))) (lit "b") (lit "o")).outcome
        = .observed ∧
      gcpObject (lit "projects/_/buckets/b/objects/o") = some (lit "b", lit "o") := by
  have hobserved : (observeStorageObjectWrite (lit "gcp")
      (some (gcpRecord (lit "projects/_/buckets/b/objects/o"))) (lit "b") (lit "o")).outcome
      = .observed := by decide +kernel
  refine ⟨hobserved, ?_⟩
  refine (((cloud_attribution_iff Platform.checksummed (lit "gcp")
    (gcpRecord (lit "projects/_/buckets/b/objects/o"))).2.1 (lit "b") (lit "o")).mpr ?_) hobserved
  intro _ pre hpre
  have hcut : pre = lit "projects/_" := by
    refine @List.append_cancel_right _ _ (gcpSuffix (lit "b") (lit "o")) _ ?_
    rw [← hpre]
    decide +kernel
  rw [hcut]
  decide +kernel

/-- Records of other objects that count as the requested ones. -/
theorem other_objects_are_observed :
    let hidden := lit "projects/_/buckets/other/objects/buckets/b/objects/o"
    let longer := lit "/storageaccounts/acct2/containers/demo/blobs/out.json.bak"
    (observeStorageObjectWrite (lit "gcp") (some (gcpRecord hidden)) (lit "b") (lit "o")).outcome
        = .observed ∧
      gcpObject hidden = some (lit "other", lit "buckets/b/objects/o") ∧
      (observeBlobWrite Platform.checksummed (lit "azure") (some (azureRecord longer)) (lit "acct")
        (lit "demo") (lit "out.json")).outcome = .observed ∧
      azureBlob (azureResourceId Platform.checksummed (azureRecord longer))
        = some (lit "acct2", lit "demo", lit "out.json.bak") := by
  decide +kernel

end ActionLineage
