import ActionLineage.Domain.ModelCopy
import ActionLineage.Reference

/-!
# Mutations — `mutate_events`

A mutation edits some of the events of a case, and every edited event is validated again. Whether
that succeeds is decided by the event a strategy selects: a distractor or a duplicate of an event
without a parent has an id that is not its root, a skewed timestamp can leave the calendar, and the
limitations of an evidence link need not be a list.
-/

namespace ActionLineage

open Py

inductive MutationStrategy
  | benignDistractor | duplicateEvent | reorderUnrelated | timestampSkew | missingOptionalField
  | pathUrlNormalization | outcomeUncertainty
deriving DecidableEq, Repr

def MutationStrategy.text : MutationStrategy → Str
  | benignDistractor => lit "benign_distractor"
  | duplicateEvent => lit "duplicate_event"
  | reorderUnrelated => lit "reorder_unrelated"
  | timestampSkew => lit "timestamp_skew"
  | missingOptionalField => lit "missing_optional_field"
  | pathUrlNormalization => lit "path_url_normalization"
  | outcomeUncertainty => lit "outcome_uncertainty"

structure MutationResult where
  name : Str
  strategy : MutationStrategy
  semanticProperty : Str
  events : List EventEnvelope
  expectedMatch : Bool
  seed : Nat

/-- `f"{seed}"`. -/
def formatSeed (seed : Nat) : Except PyError Str :=
  if maxIntDigits < (natText seed).length then .error (.ofDump .intDigits) else .ok (natText seed)

/-- `observed_at + timedelta(milliseconds=...)`, for less than a second. -/
def plusMilliseconds (d : DateTime) (milliseconds : Nat) : Option DateTime :=
  let micros := d.micro + 1000 * milliseconds
  DateTime.ofLocal { d with micro := micros % 1000000, micro_lt := Nat.mod_lt _ (by decide) }
    (-(micros / 1000000 : Nat))

/-! ## Payloads -/

/-- `value.replace(old, new, 1)` of a text that starts with `old`. -/
def replacePrefix (old new value : Str) : Str := new ++ value.drop old.length

def normalizePathUrlString (value : Str) : Str :=
  if (lit "demo://workspace/").isPrefixOf value ∧ ¬ lit "demo://workspace/./" <:+: value then
    replacePrefix (lit "demo://workspace/") (lit "demo://workspace/./") value
  else if (lit "http://receiver.local/").isPrefixOf value then
    replacePrefix (lit "http://receiver.local/") (lit "http://receiver.local:80/") value
  else value

mutual

def normalizePathUrlValue : Value → Value
  | .str s => .str (normalizePathUrlString s)
  | .list xs => .list (normalizePathUrlItems xs)
  | .dict kvs => .dict (normalizePathUrlMembers kvs)
  | v => v

def normalizePathUrlItems : List Value → List Value
  | [] => []
  | x :: xs => normalizePathUrlValue x :: normalizePathUrlItems xs

def normalizePathUrlMembers : Obj → Obj
  | [] => []
  | (k, v) :: kvs => (k, normalizePathUrlValue v) :: normalizePathUrlMembers kvs

end

/-- The payload without the note of its acknowledgement, if it has one. -/
def withoutNote (payload : Obj) : Option Obj :=
  match payload.get? (lit "acknowledgement") with
  | some (.dict acknowledgement) =>
    if (Obj.get? acknowledgement (lit "note")).isSome then
      some (payload.set (lit "acknowledgement")
        (.dict (acknowledgement.filter fun p => p.1 ≠ lit "note")))
    else none
  | _ => none

/-- `[*value]`; `none` is a `TypeError`. -/
def unpacked : Value → Option (List Value)
  | .list xs => some xs
  | .str s => some (s.map fun c => .str [c])
  | .dict kvs => some (kvs.map fun p => .str p.1)
  | _ => none

/-- The evidence link with unverified evidence. -/
def unverifiedLink (link : Obj) (limitations : List Value) : Obj :=
  (link.set (lit "verification_status") (.str (lit "unverified"))).set (lit "limitations")
    (.list (limitations ++ [.str (lit "mutation replaced verified outcome with unverified evidence")]))

/-- `evidence_link.get("limitations", [])`. -/
def limitations (link : Obj) : Value := (link.get? (lit "limitations")).getD (.list [])

def unverifiedPayload (payload : Obj) : Except PyError Obj :=
  match payload.get? (lit "evidence_link") with
  | some (.dict link) =>
    match unpacked (limitations link) with
    | some items => .ok (payload.set (lit "evidence_link") (.dict (unverifiedLink link items)))
    | none => .error (.typeError "Value after * must be an iterable")
  | _ => .ok payload

/-! ## Strategies -/

def RESOURCE_OBSERVED : Text := ⟨lit "resource.observed", by decide⟩

def SIDE_EFFECT_UNVERIFIED : Text := ⟨lit "side_effect.unverified", by decide⟩

section Mutate

variable (P : Platform)

def benignEvent (event : EventEnvelope) (seed : Str) : Except PyError EventEnvelope :=
  event.modelCopy P
    { event.unchanged with
      eventId := event.eventId.append (lit "_benign_" ++ seed)
      eventType := RESOURCE_OBSERVED
      payload := [(lit "resource", .dict [(lit "type", .str (lit "file")),
        (lit "path", .str (lit "demo://benign-" ++ seed ++ lit ".txt"))])] }

def duplicateOf (event : EventEnvelope) (seed : Nat) (seedText : Str) :
    Except PyError EventEnvelope :=
  event.modelCopy P
    { event.unchanged with
      eventId := event.eventId.append (lit "_duplicate_" ++ seedText)
      causality := { event.causality with sequence := event.causality.sequence + 10000 + seed } }

def skewedEvent (seed : Nat) (event : EventEnvelope) : Except PyError EventEnvelope :=
  match plusMilliseconds event.observedAt (seed % 5 + 1) with
  | some observedAt => event.modelCopy P { event.unchanged with observedAt }
  | none => .error (.overflowError "date value out of range")

def normalizedEvent (event : EventEnvelope) : Except PyError EventEnvelope :=
  event.modelCopy P
    { event.unchanged with payload := normalizePathUrlMembers event.payload.items }

/-- The copy without the note; `none` for an event that has no such field. -/
def noteRemoved (event : EventEnvelope) : Option (Except PyError EventEnvelope) :=
  (withoutNote event.payload.items).map fun payload =>
    event.modelCopy P { event.unchanged with payload }

/-- The copy without verification; `none` for an event of another type. -/
def degraded (event : EventEnvelope) : Option (Except PyError EventEnvelope) :=
  if event.eventType.val = lit "side_effect.verified" then
    some do
      let payload ← unverifiedPayload event.payload.items
      event.modelCopy P
        { event.unchanged with eventType := SIDE_EFFECT_UNVERIFIED, payload }
  else none

/-- The first event that `edit` applies to is replaced. -/
def editFirst (edit : EventEnvelope → Option (Except PyError EventEnvelope)) :
    List EventEnvelope → Except PyError (List EventEnvelope)
  | [] => .ok []
  | event :: events =>
    match edit event with
    | some copy => do .ok ((← copy) :: events)
    | none => do .ok (event :: (← editFirst edit events))

section Strategies

variable (events : List EventEnvelope) (expectedMatch : Bool) (seed : Nat)

def benignDistractor (h : events ≠ []) : Except PyError MutationResult := do
  let seedText ← formatSeed seed
  let distractor ← benignEvent P (events.getLast h) seedText
  .ok ⟨lit "benign-distractor-" ++ seedText, .benignDistractor,
    lit "adds unrelated evidence that should not change the expected result",
    events ++ [distractor], expectedMatch, seed⟩

/-- `events[seed % len(events)]`. -/
def selected (h : events ≠ []) : EventEnvelope :=
  events.get ⟨seed % events.length, Nat.mod_lt _ (List.length_pos_of_ne_nil h)⟩

def duplicateEvent (h : events ≠ []) : Except PyError MutationResult := do
  let seedText ← formatSeed seed
  let duplicate ← duplicateOf P (selected events seed h) seed seedText
  .ok ⟨lit "duplicate-event-" ++ seedText, .duplicateEvent,
    lit "duplicates one event as an arrival artifact", events ++ [duplicate], expectedMatch, seed⟩

def reorderUnrelated : Except PyError MutationResult := do
  .ok ⟨lit "reorder-unrelated-" ++ (← formatSeed seed), .reorderUnrelated,
    lit "arrival order changes while occurrence order remains event-local", events.reverse,
    expectedMatch, seed⟩

def timestampSkew : Except PyError MutationResult := do
  let skewed ← events.mapM (skewedEvent P seed)
  .ok ⟨lit "timestamp-skew-" ++ (← formatSeed seed), .timestampSkew,
    lit "arrival timestamps skew without changing occurrence ordering", skewed, expectedMatch, seed⟩

def missingOptionalField : Except PyError MutationResult := do
  let mutated ← editFirst (noteRemoved P) events
  .ok ⟨lit "missing-optional-field-" ++ (← formatSeed seed), .missingOptionalField,
    lit "removes an optional field that detections should not require", mutated, expectedMatch, seed⟩

def pathUrlNormalization : Except PyError MutationResult := do
  let mutated ← events.mapM (normalizedEvent P)
  .ok ⟨lit "path-url-normalization-" ++ (← formatSeed seed), .pathUrlNormalization,
    lit "path and URL representation variants preserve side-effect meaning", mutated, expectedMatch,
    seed⟩

def outcomeUncertainty : Except PyError MutationResult := do
  let mutated ← editFirst (degraded P) events
  .ok ⟨lit "outcome-uncertainty-" ++ (← formatSeed seed), .outcomeUncertainty,
    lit "verified outcome is degraded to unverified evidence", mutated, false, seed⟩

def mutateEvents (strategy : MutationStrategy) : Except PyError MutationResult :=
  if h : events = [] then do
    .ok ⟨strategy.text ++ lit "-" ++ (← formatSeed seed), strategy,
      lit "empty corpus remains empty", [], expectedMatch, seed⟩
  else
    match strategy with
    | .benignDistractor => benignDistractor P events expectedMatch seed h
    | .duplicateEvent => duplicateEvent P events expectedMatch seed h
    | .reorderUnrelated => reorderUnrelated events expectedMatch seed
    | .timestampSkew => timestampSkew P events expectedMatch seed
    | .missingOptionalField => missingOptionalField P events expectedMatch seed
    | .pathUrlNormalization => pathUrlNormalization P events expectedMatch seed
    | .outcomeUncertainty => outcomeUncertainty P events seed

end Strategies

end Mutate

/-! ## When a mutation succeeds -/

/-- The time of day `milliseconds` later is on the last day of the calendar still, if `d` is. -/
def StaysOnCalendar (d : DateTime) (milliseconds : Nat) : Prop :=
  d.year = 9999 → d.month = 12 → d.day = 31 →
    ((d.hour * 60 + d.minute) * 60 + d.second) * 1000000 + d.micro + 1000 * milliseconds < 86400000000

/-- The evidence link of the payload, if it has one, can take the two changes: its limitations can be
unpacked, and neither they nor the link get too long. -/
def Degradable (payload : Obj) : Prop :=
  ∀ link, payload.get? (lit "evidence_link") = some (.dict link) →
    ∃ items, unpacked (limitations link) = some items ∧
      items.length < DEFAULT_JSON_MAX_ARRAY_LENGTH ∧
      (unverifiedLink link items).length ≤ DEFAULT_JSON_MAX_OBJECT_MEMBERS

/-- What the strategy asks of the events it selects. -/
def Mutable (events : List EventEnvelope) (h : events ≠ []) (seed : Nat) : MutationStrategy → Prop
  | .benignDistractor => (events.getLast h).causality.parentEventId ≠ none
  | .duplicateEvent => (selected events seed h).causality.parentEventId ≠ none
  | .timestampSkew => ∀ event ∈ events, StaysOnCalendar event.observedAt (seed % 5 + 1)
  | .outcomeUncertainty => ∀ event, events.find? (fun event =>
      event.eventType.val = lit "side_effect.verified") = some event →
        Degradable event.payload.items
  | .reorderUnrelated | .missingOptionalField | .pathUrlNormalization => True

/-! ## Texts, timestamps and payloads of a mutated event -/

theorem surrogateFree_natText (n : Nat) : SurrogateFree (natText n) :=
  fun c hc => isSurrogate_of_isDigit (natText_digits n c hc)

theorem natText_length_le {n k : Nat} (hk : 0 < k) : (natText n).length ≤ k ↔ n < 10 ^ k := by
  unfold natText
  split
  case isTrue h =>
    subst h
    simp only [List.length_singleton]
    exact iff_of_true hk (Nat.pow_pos (by decide))
  case isFalse h =>
    rw [List.length_map, List.length_reverse, Nat.digits_length_le_iff (by decide)]

theorem formatSeed_eq_ok {seed : Nat} {text : Str} :
    formatSeed seed = .ok text ↔ seed < 10 ^ maxIntDigits ∧ text = natText seed := by
  rw [← natText_length_le (by decide)]
  unfold formatSeed
  split
  · simp only [reduceCtorEq, false_iff, not_and]
    intro hle
    omega
  · simp only [Except.ok.injEq, eq_comm]
    exact (and_iff_right (by omega)).symm

theorem ofLocal_isSome (d : DateTime) (offset : Int) : (d.ofLocal offset).isSome =
    (d.shiftDay ((((d.hour * 60 + d.minute) * 60 + d.second : Nat) - offset) / 86400)).isSome := by
  unfold DateTime.ofLocal
  dsimp only
  split
  · rename_i h
    exact (congrArg Option.isSome h).symm
  · rename_i h
    exact (congrArg Option.isSome h).symm

theorem plusMilliseconds_isSome {d : DateTime} {milliseconds : Nat} (h : milliseconds < 1000) :
    (plusMilliseconds d milliseconds).isSome = true ↔ StaysOnCalendar d milliseconds := by
  have hdecember : d.month = 12 → daysInMonth d.year d.month = 31 := by
    intro hmonth
    simp [daysInMonth, hmonth]
  have := d.year_le
  have := d.month_le
  have := d.day_le
  have := d.hour_lt
  have := d.minute_lt
  have := d.second_lt
  have := d.micro_lt
  unfold plusMilliseconds StaysOnCalendar
  dsimp only
  rw [ofLocal_isSome]
  unfold DateTime.shiftDay
  dsimp only
  split_ifs <;> simp only [Option.isSome_some, Option.isSome_none, true_iff, reduceCtorEq, false_iff]
    <;> omega

/-- A member that is there already can be exchanged for one that fits. -/
theorem fits_exchange {lim : JsonLimits} {d : Nat} {kvs : Obj} (hfits : Fits lim d (.dict kvs))
    {k : Str} {old : Value} (hold : kvs.get? k = some old) (v : Value) :
    Fits lim d (.dict (kvs.set k v)) ↔ Fits lim (d + 1) v := by
  have hmem : k ∈ kvs.keys := List.mem_map.mpr ⟨(k, old), Obj.mem_of_get? hold, rfl⟩
  rw [fits_set _ hfits, Obj.length_set v hmem]
  exact and_iff_right ((fits_dict _).mp hfits).2.1

theorem fits_member {lim : JsonLimits} {d : Nat} {kvs : Obj} (hfits : Fits lim d (.dict kvs))
    {k : Str} {v : Value} (h : kvs.get? k = some v) : Fits lim (d + 1) v :=
  ((fits_dict _).mp hfits).2.2 (k, v) (Obj.mem_of_get? h)

theorem normalizePathUrlItems_eq (xs : List Value) :
    normalizePathUrlItems xs = xs.map normalizePathUrlValue := by
  induction xs with
  | nil => rfl
  | cons x xs ih => rw [normalizePathUrlItems, ih, List.map_cons]

theorem normalizePathUrlMembers_eq (kvs : Obj) :
    normalizePathUrlMembers kvs = kvs.map fun p => (p.1, normalizePathUrlValue p.2) := by
  induction kvs with
  | nil => rfl
  | cons p kvs ih => rw [normalizePathUrlMembers, ih, List.map_cons]

/-- Normalizing paths changes no depth and no length. -/
theorem fits_normalizePathUrlValue {lim : JsonLimits} {d : Nat} {v : Value} (h : Fits lim d v) :
    Fits lim d (normalizePathUrlValue v) := by
  induction v generalizing d with
  | list xs ih =>
    rw [fits_list] at h
    rw [normalizePathUrlValue, normalizePathUrlItems_eq, fits_list, List.length_map]
    refine ⟨h.1, h.2.1, fun y hy => ?_⟩
    obtain ⟨x, hx, rfl⟩ := List.mem_map.mp hy
    exact ih x hx (h.2.2 x hx)
  | dict kvs ih =>
    rw [fits_dict] at h
    rw [normalizePathUrlValue, normalizePathUrlMembers_eq, fits_dict, List.length_map]
    refine ⟨h.1, h.2.1, fun q hq => ?_⟩
    obtain ⟨p, hp, rfl⟩ := List.mem_map.mp hq
    exact ih p hp (h.2.2 p hp)
  | _ => exact h

theorem fits_withoutNote {payload payload' : Obj} (hfits : Fits .default 0 (.dict payload))
    (h : withoutNote payload = some payload') : Fits .default 0 (.dict payload') := by
  unfold withoutNote at h
  split at h
  case h_2 => cases h
  case h_1 acknowledgement hack =>
    split at h
    · obtain rfl := Option.some.inj h
      rw [fits_exchange hfits hack, fits_dict]
      obtain ⟨hdepth, hlength, hmembers⟩ := (fits_dict _).mp (fits_member hfits hack)
      exact ⟨hdepth, (List.length_filter_le _ _).trans hlength,
        fun p hp => hmembers p (List.mem_of_mem_filter hp)⟩
    · cases h

/-- What is unpacked from a value fits where the members of a list would. -/
theorem fits_unpacked {v : Value} {items : List Value} (hfits : Fits .default 2 v)
    (h : unpacked v = some items) : ∀ x ∈ items, Fits .default 3 x := by
  have htext : ∀ s, Fits .default 3 (.str s) := fun s => by
    show 3 ≤ 64
    omega
  intro x hx
  cases v with
  | list xs =>
    obtain rfl := Option.some.inj h
    exact ((fits_list _).mp hfits).2.2 x hx
  | str s =>
    obtain rfl := Option.some.inj h
    obtain ⟨c, -, rfl⟩ := List.mem_map.mp hx
    exact htext _
  | dict kvs =>
    obtain rfl := Option.some.inj h
    obtain ⟨p, -, rfl⟩ := List.mem_map.mp hx
    exact htext _
  | _ => cases h

/-- The changed link fits if it got no longer than a dict and its limitations than a list may be. -/
theorem fits_unverifiedLink {link : Obj} {items : List Value}
    (hfits : Fits .default 1 (.dict link)) (hitems : ∀ x ∈ items, Fits .default 3 x) :
    Fits .default 1 (.dict (unverifiedLink link items)) ↔
      items.length < DEFAULT_JSON_MAX_ARRAY_LENGTH ∧
        (unverifiedLink link items).length ≤ DEFAULT_JSON_MAX_OBJECT_MEMBERS := by
  have htext : ∀ s, Fits .default 2 (.str s) := fun s => by
    show 2 ≤ 64
    omega
  have hlimitations : ∀ message, Fits .default 2 (.list (items ++ [.str message])) ↔
      items.length < DEFAULT_JSON_MAX_ARRAY_LENGTH := by
    intro message
    rw [fits_list, List.length_append, List.length_singleton]
    refine ⟨fun h => h.2.1, fun h => ⟨by decide, h, fun x hx => ?_⟩⟩
    rcases List.mem_append.mp hx with hx | hx
    · exact hitems x hx
    · rw [List.mem_singleton.mp hx]
      show 3 ≤ 64
      omega
  rw [fits_dict]
  constructor
  · rintro ⟨-, hlength, hmembers⟩
    exact ⟨(hlimitations _).mp (hmembers (_, _) (Obj.mem_set.mpr (.inl rfl))), hlength⟩
  · rintro ⟨hlist, hlength⟩
    refine ⟨by decide, hlength, fun p hp => ?_⟩
    rcases Obj.mem_set.mp hp with rfl | ⟨hp, -⟩
    · exact (hlimitations _).mpr hlist
    · rcases Obj.mem_set.mp hp with rfl | ⟨hp, -⟩
      · exact htext _
      · exact ((fits_dict _).mp hfits).2.2 p hp

/-- The payload of the copy is JSON within the limits exactly if the evidence link is degradable. -/
theorem unverifiedPayload_fits {payload : Obj} (hfits : Fits .default 0 (.dict payload)) :
    (∃ payload', unverifiedPayload payload = .ok payload' ∧ Fits .default 0 (.dict payload')) ↔
      Degradable payload := by
  unfold unverifiedPayload Degradable
  split
  case h_2 hnone =>
    exact iff_of_true ⟨payload, rfl, hfits⟩ fun link hlink => absurd hlink (hnone link)
  case h_1 link hlink =>
    have hlinkFits := fits_member hfits hlink
    have hlimitations : Fits .default 2 (limitations link) := by
      unfold limitations
      cases hget : Obj.get? link (lit "limitations") with
      | none => exact (fits_list _).mpr ⟨by decide, by decide, fun x hx => absurd hx List.not_mem_nil⟩
      | some v => exact fits_member hlinkFits hget
    rw [hlink]
    simp only [Option.some.injEq, Value.dict.injEq, forall_eq']
    cases hitems : unpacked (limitations link) with
    | none => simp
    | some items =>
      simp only [Except.ok.injEq, exists_eq_left', Option.some.injEq]
      rw [fits_exchange hfits hlink,
        fits_unverifiedLink hlinkFits (fits_unpacked hlimitations hitems)]

/-! ## Which edits of an event succeed -/

variable {P : Platform}

theorem EventEnvelope.Encodable.parts {e : EventEnvelope} (h : e.Encodable) :
    SurrogateFree e.eventId.val ∧ SurrogateFree e.eventType.val ∧
      ActionLineage.Encodable e.causality.texts := by
  unfold EventEnvelope.Encodable EventEnvelope.texts at h
  simp only [encodable_append, encodable_cons] at h
  obtain ⟨⟨⟨⟨⟨⟨hid, htype, -⟩, -⟩, -⟩, hcausality⟩, -⟩, -⟩ := h
  exact ⟨hid, htype, hcausality⟩

/-- The edit gives an event whose texts can be encoded. -/
def Succeeds (edited : Except PyError EventEnvelope) : Prop :=
  ∃ event, edited = .ok event ∧ event.Encodable

theorem modelCopy_succeeds {e : EventEnvelope} {u : EventUpdate} (he : e.Encodable)
    (hid : SurrogateFree u.eventId.val) (htype : SurrogateFree u.eventType.val)
    (hcausality : Encodable u.causality.texts) :
    Succeeds (e.modelCopy P u) ↔
      Fits .default 0 (.dict u.payload) ∧ CausalityOk u.eventId u.eventType u.causality := by
  have hu : Encodable u.texts := by
    unfold EventUpdate.texts
    rw [encodable_append, encodable_cons, encodable_cons]
    exact ⟨⟨hid, htype, by simp [Encodable]⟩, hcausality⟩
  rw [← modelCopy_iff he hu]
  constructor
  · rintro ⟨event, h, -⟩
    exact ⟨event, h⟩
  · rintro ⟨event, h⟩
    exact ⟨event, h, modelCopy_encodable he hu h⟩

/-- An event that is no documented root is valid exactly if it has a parent. -/
theorem causalityOk_of_undocumented {eventId eventType : Text} {c : Causality}
    (h : eventType.val ∉ documentedRootEventTypes) :
    CausalityOk eventId eventType c ↔ c.parentEventId ≠ none :=
  ⟨fun hc hnone => h (hc hnone).1, fun hsome hnone => absurd hnone hsome⟩

theorem resourceObserved_undocumented : RESOURCE_OBSERVED.val ∉ documentedRootEventTypes := by decide

theorem unverified_undocumented : SIDE_EFFECT_UNVERIFIED.val ∉ documentedRootEventTypes := by decide

theorem benignEvent_succeeds {event : EventEnvelope} (he : event.Encodable) (seed : Nat) :
    Succeeds (benignEvent P event (natText seed)) ↔ event.causality.parentEventId ≠ none := by
  obtain ⟨hid, -, hcausality⟩ := he.parts
  have hsuffix : SurrogateFree (lit "_benign_" ++ natText seed) :=
    (surrogateFree_of_all (by decide)).append (surrogateFree_natText seed)
  have hobserved : SurrogateFree RESOURCE_OBSERVED.val := surrogateFree_of_all (by decide)
  have hdistractor : ∀ path, Fits .default 0 (.dict [(lit "resource", .dict [(lit "type",
      .str (lit "file")), (lit "path", .str path)])]) := by
    intro path
    simp [Fits, FitsMembers, JsonLimits.default, DEFAULT_JSON_MAX_DEPTH,
      DEFAULT_JSON_MAX_OBJECT_MEMBERS]
  unfold benignEvent
  rw [modelCopy_succeeds he (hid.append hsuffix) hobserved hcausality,
    causalityOk_of_undocumented resourceObserved_undocumented]
  exact and_iff_right (hdistractor _)

/-- A duplicate of an event without a parent has another id than its root. -/
theorem duplicateOf_succeeds {event : EventEnvelope} (he : event.Encodable) (seed : Nat) :
    Succeeds (duplicateOf P event seed (natText seed)) ↔ event.causality.parentEventId ≠ none := by
  obtain ⟨hid, htype, hcausality⟩ := he.parts
  have hsuffix : SurrogateFree (lit "_duplicate_" ++ natText seed) :=
    (surrogateFree_of_all (by decide)).append (surrogateFree_natText seed)
  unfold duplicateOf
  rw [modelCopy_succeeds he (hid.append hsuffix) htype hcausality]
  refine (and_iff_right event.payload.fits).trans ⟨fun hcopy hnone => ?_, fun hsome hnone => ?_⟩
  · have hroot := (event.causalityOk hnone).2
    have hcopied : event.causality.rootEventId = event.eventId.append _ := (hcopy hnone).2
    have hlength := congrArg (fun t : Text => t.val.length) (hroot.symm.trans hcopied)
    simp only [Text.append, List.length_append] at hlength
    have : (lit "_duplicate_").length = 11 := by decide
    omega
  · exact absurd hnone hsome

theorem skewedEvent_succeeds {event : EventEnvelope} (he : event.Encodable) (seed : Nat) :
    Succeeds (skewedEvent P seed event) ↔ StaysOnCalendar event.observedAt (seed % 5 + 1) := by
  obtain ⟨hid, htype, hcausality⟩ := he.parts
  have hskew : seed % 5 + 1 < 1000 := by omega
  unfold skewedEvent
  rw [← plusMilliseconds_isSome hskew]
  cases plusMilliseconds event.observedAt (seed % 5 + 1) with
  | none => simp [Succeeds]
  | some observedAt =>
    dsimp only
    rw [modelCopy_succeeds he hid htype hcausality]
    exact iff_of_true ⟨event.payload.fits, event.causalityOk⟩ rfl

theorem normalizedEvent_succeeds {event : EventEnvelope} (he : event.Encodable) :
    Succeeds (normalizedEvent P event) := by
  obtain ⟨hid, htype, hcausality⟩ := he.parts
  have hfits := fits_normalizePathUrlValue event.payload.fits
  unfold normalizedEvent
  rw [modelCopy_succeeds he hid htype hcausality]
  exact ⟨hfits, event.causalityOk⟩

theorem noteRemoved_succeeds {event : EventEnvelope} (he : event.Encodable)
    {edited : Except PyError EventEnvelope} (h : noteRemoved P event = some edited) :
    Succeeds edited := by
  obtain ⟨hid, htype, hcausality⟩ := he.parts
  obtain ⟨payload, hpayload, rfl⟩ := Option.map_eq_some_iff.mp h
  rw [modelCopy_succeeds he hid htype hcausality]
  exact ⟨fits_withoutNote event.payload.fits hpayload, event.causalityOk⟩

theorem degraded_isSome (event : EventEnvelope) : (degraded P event).isSome =
    decide (event.eventType.val = lit "side_effect.verified") := by
  unfold degraded
  split
  case isTrue h => exact (decide_eq_true h).symm
  case isFalse h => exact (decide_eq_false h).symm

theorem degraded_succeeds {event : EventEnvelope} (he : event.Encodable)
    {edited : Except PyError EventEnvelope} (h : degraded P event = some edited) :
    Succeeds edited ↔ Degradable event.payload.items := by
  obtain ⟨hid, -, hcausality⟩ := he.parts
  unfold degraded at h
  split at h
  case isFalse => cases h
  case isTrue hverified =>
    obtain rfl := Option.some.inj h
    -- An event of this type has a parent, and keeps it.
    have hundocumented : event.eventType.val ∉ documentedRootEventTypes := by
      rw [hverified]
      decide
    have hparent : event.causality.parentEventId ≠ none :=
      (causalityOk_of_undocumented hundocumented).mp event.causalityOk
    have hunverified : SurrogateFree SIDE_EFFECT_UNVERIFIED.val := surrogateFree_of_all (by decide)
    have hcopy : ∀ payload, Succeeds (event.modelCopy P { event.unchanged with
        eventType := SIDE_EFFECT_UNVERIFIED, payload }) ↔ Fits .default 0 (.dict payload) := by
      intro payload
      rw [modelCopy_succeeds he hid hunverified hcausality,
        causalityOk_of_undocumented unverified_undocumented]
      exact and_iff_left hparent
    rw [← unverifiedPayload_fits event.payload.fits]
    constructor
    · rintro ⟨copy, h, hfree⟩
      obtain ⟨payload, hpayload, h⟩ := bind_eq_ok.mp h
      exact ⟨payload, hpayload, (hcopy payload).mp ⟨copy, h, hfree⟩⟩
    · rintro ⟨payload, hpayload, hfits⟩
      obtain ⟨copy, h, hfree⟩ := (hcopy payload).mpr hfits
      exact ⟨copy, bind_eq_ok.mpr ⟨payload, hpayload, h⟩, hfree⟩

/-! ## Whole cases -/

section Whole

variable {events : List EventEnvelope} {seed : Nat}

theorem mapM_succeeds {edit : EventEnvelope → Except PyError EventEnvelope} :
    (∃ edited, events.mapM edit = .ok edited ∧ ∀ event ∈ edited, event.Encodable) ↔
      ∀ event ∈ events, Succeeds (edit event) := by
  simp only [mapM_eq_ok]
  constructor
  · rintro ⟨edited, hedited, hfree⟩ event hevent
    obtain ⟨copy, hcopy, h⟩ := forall₂_mem_left hedited hevent
    exact ⟨copy, h, hfree copy hcopy⟩
  · exact exists_forall₂

/-- Editing the first event an edit applies to succeeds if that one edit does. -/
theorem editFirst_succeeds {edit : EventEnvelope → Option (Except PyError EventEnvelope)}
    (hevents : ∀ event ∈ events, event.Encodable) :
    (∃ edited, editFirst edit events = .ok edited ∧ ∀ event ∈ edited, event.Encodable) ↔
      ∀ event edited, events.find? (fun event => (edit event).isSome) = some event →
        edit event = some edited → Succeeds edited := by
  induction events with
  | nil => simp [editFirst]
  | cons event events ih =>
    obtain ⟨hevent, hrest⟩ := List.forall_mem_cons.mp hevents
    rw [editFirst]
    cases hedit : edit event with
    | none =>
      rw [List.find?_cons_of_neg (by simp [hedit]), ← ih hrest]
      simp only [bind_eq_ok, Except.ok.injEq]
      constructor
      · rintro ⟨-, ⟨edited, h, rfl⟩, hfree⟩
        exact ⟨edited, h, (List.forall_mem_cons.mp hfree).2⟩
      · rintro ⟨edited, h, hfree⟩
        exact ⟨_, ⟨edited, h, rfl⟩, List.forall_mem_cons.mpr ⟨hevent, hfree⟩⟩
    | some edited =>
      rw [List.find?_cons_of_pos (by simp [hedit])]
      simp only [bind_eq_ok, Except.ok.injEq]
      constructor
      · rintro ⟨-, ⟨copy, h, rfl⟩, hfree⟩ event' edited' hfirst hedited'
        obtain rfl := Option.some.inj hfirst
        obtain rfl := Option.some.inj (hedit.symm.trans hedited')
        exact ⟨copy, h, (List.forall_mem_cons.mp hfree).1⟩
      · intro h
        obtain ⟨copy, hcopy, hfree⟩ := h event edited rfl hedit
        exact ⟨_, ⟨copy, hcopy, rfl⟩, List.forall_mem_cons.mpr ⟨hfree, hrest⟩⟩

/-- The mutation gives a result, and valid events in it. -/
def Mutates (mutation : Except PyError MutationResult) : Prop :=
  ∃ result, mutation = .ok result ∧ ∀ event ∈ result.events, event.Encodable

/-- A strategy that adds one event. -/
theorem mutates_of_append {edit : Str → Except PyError EventEnvelope}
    {result : Str → EventEnvelope → MutationResult}
    (hresult : ∀ text event, (result text event).events = events ++ [event])
    (hevents : ∀ event ∈ events, event.Encodable) :
    Mutates (do
      let text ← formatSeed seed
      let event ← edit text
      .ok (result text event)) ↔ seed < 10 ^ maxIntDigits ∧ Succeeds (edit (natText seed)) := by
  unfold Mutates
  simp only [bind_eq_ok, formatSeed_eq_ok, Except.ok.injEq]
  constructor
  · rintro ⟨-, ⟨text, ⟨hseed, rfl⟩, event, h, rfl⟩, hfree⟩
    rw [hresult] at hfree
    exact ⟨hseed, event, h, hfree event (by simp)⟩
  · rintro ⟨hseed, event, h, hfree⟩
    refine ⟨_, ⟨natText seed, ⟨hseed, rfl⟩, event, h, rfl⟩, ?_⟩
    rw [hresult, List.forall_mem_append]
    exact ⟨hevents, by simpa using hfree⟩

/-- A strategy that edits the events. -/
theorem mutates_of_edit {edit : Except PyError (List EventEnvelope)}
    {result : List EventEnvelope → Str → MutationResult}
    (hresult : ∀ edited text, (result edited text).events = edited) :
    Mutates (do
      let edited ← edit
      let text ← formatSeed seed
      .ok (result edited text)) ↔
      seed < 10 ^ maxIntDigits ∧ ∃ edited, edit = .ok edited ∧ ∀ event ∈ edited, event.Encodable := by
  unfold Mutates
  simp only [bind_eq_ok, formatSeed_eq_ok, Except.ok.injEq]
  constructor
  · rintro ⟨-, ⟨edited, h, text, ⟨hseed, rfl⟩, rfl⟩, hfree⟩
    rw [hresult] at hfree
    exact ⟨hseed, edited, h, hfree⟩
  · rintro ⟨hseed, edited, h, hfree⟩
    refine ⟨_, ⟨edited, h, natText seed, ⟨hseed, rfl⟩, rfl⟩, ?_⟩
    rw [hresult]
    exact hfree

end Whole

/-- **Mutations.** A mutation of valid events gives valid events exactly if the seed can be written
and the strategy can edit the events it selects. -/
theorem mutation_valid_iff (P : Platform) (events : List EventEnvelope) (h : events ≠ [])
    (hevents : ∀ event ∈ events, event.Encodable) (strategy : MutationStrategy)
    (expectedMatch : Bool) (seed : Nat) :
    (∃ result, mutateEvents P events expectedMatch seed strategy = .ok result ∧
      ∀ event ∈ result.events, event.Encodable) ↔
      seed < 10 ^ maxIntDigits ∧ Mutable events h seed strategy := by
  unfold mutateEvents
  rw [dif_neg h]
  cases strategy with
  | benignDistractor =>
    refine (mutates_of_append (fun _ _ => rfl) hevents).trans (and_congr_right' ?_)
    exact benignEvent_succeeds (hevents _ (List.getLast_mem h)) seed
  | duplicateEvent =>
    refine (mutates_of_append (fun _ _ => rfl) hevents).trans (and_congr_right' ?_)
    exact duplicateOf_succeeds (hevents _ (List.get_mem events _)) seed
  | reorderUnrelated =>
    unfold reorderUnrelated
    simp only [bind_eq_ok, formatSeed_eq_ok, Except.ok.injEq, Mutable, and_true]
    constructor
    · rintro ⟨-, ⟨text, ⟨hseed, -⟩, -⟩, -⟩
      exact hseed
    · intro hseed
      exact ⟨_, ⟨natText seed, ⟨hseed, rfl⟩, rfl⟩,
        fun event he => hevents event (List.mem_reverse.mp he)⟩
  | timestampSkew =>
    refine (mutates_of_edit fun _ _ => rfl).trans (and_congr_right' (mapM_succeeds.trans ?_))
    exact forall₂_congr fun event he => skewedEvent_succeeds (hevents event he) seed
  | missingOptionalField =>
    refine (mutates_of_edit fun _ _ => rfl).trans
      (and_congr_right' ((editFirst_succeeds hevents).trans ?_))
    exact iff_of_true (fun event edited hfirst hedited =>
      noteRemoved_succeeds (hevents event (List.mem_of_find?_eq_some hfirst)) hedited) trivial
  | pathUrlNormalization =>
    refine (mutates_of_edit fun _ _ => rfl).trans (and_congr_right' (mapM_succeeds.trans ?_))
    exact iff_of_true (fun event he => normalizedEvent_succeeds (hevents event he)) trivial
  | outcomeUncertainty =>
    refine (mutates_of_edit fun _ _ => rfl).trans
      (and_congr_right' ((editFirst_succeeds hevents).trans ?_))
    simp only [degraded_isSome]
    refine forall_congr' fun event => ?_
    rw [forall_comm]
    refine forall_congr' fun hfirst => ?_
    have he := hevents event (List.mem_of_find?_eq_some hfirst)
    obtain ⟨edited, hedited⟩ : ∃ edited, degraded P event = some edited := by
      have hverified := List.find?_some hfirst
      rw [← Option.isSome_iff_exists, degraded_isSome]
      exact hverified
    rw [← degraded_succeeds he hedited, hedited]
    simp only [Option.some.injEq, forall_eq']

/-- A case of one root event. -/
def rootCase : List EventEnvelope := [sampleEvent (sampleText "e1") 0 emptyPayload]

theorem rootCase_encodable : ∀ event ∈ rootCase, event.Encodable := by decide +kernel

theorem mutation_valid_iff_sample :
    ∃ result, mutateEvents .plain rootCase true 3 .timestampSkew = .ok result ∧
      ∀ event ∈ result.events, event.Encodable := by
  have hseed : 3 < 10 ^ maxIntDigits :=
    (show 3 < 10 ^ 1 by decide).trans_le (Nat.pow_le_pow_right (by decide) (by decide))
  have hcalendar : ∀ event ∈ rootCase, StaysOnCalendar event.observedAt 4 := by
    intro event hevent hyear
    rw [List.mem_singleton.mp hevent] at hyear
    exact absurd hyear (by decide)
  exact (mutation_valid_iff .plain rootCase (List.cons_ne_nil _ _) rootCase_encodable .timestampSkew
    true 3).mpr ⟨hseed, hcalendar⟩

/-- The distractor of a case that ends with a root event is no event. -/
theorem root_case_has_no_distractor : (∀ event ∈ rootCase, event.Encodable) ∧
    ¬ ∃ result, mutateEvents .plain rootCase true 0 .benignDistractor = .ok result := by
  refine ⟨rootCase_encodable, ?_⟩
  rintro ⟨result, h⟩
  have hraises : (mutateEvents .plain rootCase true 0 .benignDistractor).isOk = false := by
    decide +kernel
  rw [h] at hraises
  cases hraises

end ActionLineage
