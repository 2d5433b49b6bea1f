import ActionLineage.Domain.SecondPass
import ActionLineage.Journal.Append

/-!
# Export profiles

A mapping redacts the event object again before anything else sees it. On an event the journal
persisted under the default policy the second pass is meant to be the identity; it is exactly when
the patterns leave the texts of the record alone (`export_fidelity_iff`).
-/

namespace ActionLineage

open Py

inductive ExportProfile
  | actionlineageJson | opentelemetry | ocsf | ecs | splunkHec | sigma | stix | taxii
deriving DecidableEq, Repr

section Map

variable (P : Platform)

/-- `_redacted_event`. -/
def redactedEvent (e : EventEnvelope) (redactionPolicy : Option RedactionPolicy) :
    Except PyError Obj := do
  let policy := redactionPolicy.getD (.default P)
  match ← policy.apply P (.dict (← eventToDict P e)) with
  | .dict redacted => .ok redacted
  | _ => .error (.valueError "redaction policy must return an event object")

/-- `map_event_for_profile`; the records of the other profiles are functions of the redacted
object. -/
def mapEventForProfile (record : ExportProfile → Obj → Except PyError Obj) (e : EventEnvelope)
    (profile : ExportProfile) (redactionPolicy : Option RedactionPolicy) : Except PyError Obj := do
  let redacted ← redactedEvent P e redactionPolicy
  if profile = .actionlineageJson then .ok redacted else record profile redacted

end Map

variable {P : Platform}

/-! ## The second pass over a persisted event -/

theorem apply_eq_self_iff {v : Value} (hfits : Fits .default 0 v)
    (hshort : Settled P (.default P) (fun path s => Short (.default P) path s) [] v) :
    (RedactionPolicy.default P).apply P v = .ok v ↔
      Settled P (.default P) (fun _ s => Stable (.default P) s) [] v := by
  have hbudget : captureBudget (.default P) = .ok ⟨128, 65536, 0, 0⟩ := rfl
  unfold RedactionPolicy.apply
  simp only [hbudget, bind, Except.bind]
  constructor
  · intro h
    cases hwalk : redactValue P (.default P) [] 0 ⟨128, 65536, 0, 0⟩ v with
    | error exc =>
      rw [hwalk] at h
      cases h
    | ok r =>
      rw [hwalk] at h
      obtain ⟨w, budget⟩ := r
      obtain rfl : w = v := Except.ok.inj h
      exact settled_of_redacts_self ⟨0, _, budget, hwalk⟩
  · intro h
    rw [redactValue_eq_self roomy_default hfits (hshort.and h)]

/-- The payload object a persisted event was redacted from has no bytes. -/
theorem fits_of_persisted {policy : RedactionPolicy} {e : EventEnvelope} {b : Bytes}
    (h : serializeEventForPersistence P policy e = .ok b) {o : Obj}
    (ho : P.dumpPayload e.payload.items = .ok o) : Fits .default 0 (.dict o) := by
  obtain ⟨v, hv, -⟩ := bind_eq_ok.mp h
  unfold redactEvent at hv
  split at hv
  · rename_i hresult
    obtain ⟨kvs, hkvs, -⟩ := bind_eq_ok.mp hresult
    obtain ⟨o', ho', rfl, hfits⟩ := eventToDict_eq_ok.mp hkvs
    obtain rfl := Except.ok.inj (ho.symm.trans ho')
    exact fits_payload hfits
  · cases hv

/-- A persisted event, as an object, is not captured by a second pass. -/
theorem settled_of_prepared (hdigest : ∀ b, (P.sha256Hex b).length = 64) {e r : EventEnvelope}
    {prev : Option Text} {line : Bytes}
    (h : prepareEventForAppend P (.default P) e prev = .ok (r, line)) :
    ∃ object, eventToDict P r = .ok object ∧ Fits .default 0 (.dict object) ∧
      Settled P (.default P) (fun path s => Short (.default P) path s) [] (.dict object) := by
  obtain ⟨-, b, redacted, hash, hb, hredacted, -, rfl, hline⟩ := prepareEventForAppend_eq_ok.mp h
  have hfrom := redactedFrom_of_persisted hb hredacted
  obtain ⟨o, w, ho, hred, -, hsorted⟩ := hfrom.payload
  obtain ⟨o', hdict, ho', -, hfits⟩ := eventToDict_of_serializes hline
  obtain rfl : redacted.payload.items = o' :=
    Except.ok.inj (hfrom.canonical.dumpPayload.symm.trans ho')
  refine ⟨_, hdict, hfits, settled_items _ ?_⟩
  rw [← hsorted]
  exact settled_of_redacts hdigest (fits_of_persisted hb ho) hred

/-- The exported record of an event persisted under the default policy is the persisted object
exactly when one more application of the patterns leaves its texts alone. -/
theorem export_fidelity_iff (hdigest : ∀ b, (P.sha256Hex b).length = 64)
    (record : ExportProfile → Obj → Except PyError Obj) {content content' : Content}
    {e r : EventEnvelope} (h : appendEvent P (.default P) content e = (.ok r, content')) :
    ∃ object, eventToDict P r = .ok object ∧
      (mapEventForProfile P record r .actionlineageJson none = .ok object ↔
        Settled P (.default P) (fun _ s => redactText (.default P) s = .ok s) [] (.dict object)) := by
  obtain ⟨es, hv⟩ := verified_of_appendEvent h
  obtain ⟨-, line, hprep, -⟩ := (appendEvent_eq_ok hv).mp h
  obtain ⟨object, hobject, hfits, hshort⟩ := settled_of_prepared hdigest hprep
  refine ⟨object, hobject, ?_⟩
  refine Iff.trans ?_ (apply_eq_self_iff hfits hshort)
  unfold mapEventForProfile redactedEvent
  simp only [hobject, bind, Except.bind, Option.getD_none, if_true]
  cases happly : (RedactionPolicy.default P).apply P (.dict object) with
  | error exc => simp
  | ok v =>
    cases v with
    | dict kvs => simp
    | _ => simp

theorem export_fidelity_iff_sample :
    let P := Platform.checksummed
    ∃ r after object, appendEvent P (.default P) none firstEvent = (.ok r, after) ∧
      eventToDict P r = .ok object ∧
      (mapEventForProfile P (fun _ redacted => .ok redacted) r .actionlineageJson none = .ok object ↔
        Settled P (.default P) (fun _ s => redactText (.default P) s = .ok s) [] (.dict object)) := by
  intro P
  obtain ⟨r, after, hstep⟩ : ∃ r after, appendEvent P (.default P) none firstEvent = (.ok r, after) :=
    exists_appendEvent_ok (by decide +kernel)
  obtain ⟨object, hobject, hiff⟩ :=
    export_fidelity_iff (fun b => hexPad_length 64 _) (fun _ redacted => .ok redacted) hstep
  exact ⟨r, after, object, hstep, hobject, hiff⟩

/-- A secret that ends at a semicolon. -/
def tokenEvent : EventEnvelope :=
  sampleEvent (sampleText "a") 0
    (samplePayload [(lit "note", .str (lit "token: abcdefgh;rest"))])

/-- The second pass matches the text the first one wrote, together with what follows it. -/
theorem exported_record_differs :
    let P := Platform.checksummed
    let step := appendEvent P (.default P) none tokenEvent
    let compared : Except PyError (Bool × Bool) := do
      let r ← step.1
      let s ← verifiedJournalSnapshot P step.2 none .null
      let persisted ← serializeEvent P r
      let exported ← mapEventForProfile P (fun _ redacted => .ok redacted) r .actionlineageJson none
      let document ← deterministicJsonBytes (.dict exported)
      .ok (s.ok, persisted == document)
    compared = .ok (true, false) := by
  decide +kernel

end ActionLineage
