import ActionLineage.Minimization
import ActionLineage.Detection.Sequence
import ActionLineage.Reference

/-!
# Minimized counterexamples — `minimize_counterexample`

A replay case is wrong when the verdict of the rule is not the expected one. Its events are objects:
the minimizer leaves an event out by identity, so that an object that stands twice in a case goes as
a whole. What it returns is wrong still, and right without any one object (`counterexample_minimized`).
-/

namespace ActionLineage

open Py

/-- An event and which object it is. -/
structure ReplayEvent (κ : Type) where
  identity : κ
  event : EventEnvelope

structure ReplayCase (κ : Type) where
  name : Str
  events : List (ReplayEvent κ)
  expectedMatch : Bool

section Minimize

variable (P : Platform) {κ : Type} [DecidableEq κ]

/-- `bool(evaluate_sequence_rule(events, rule))`. -/
def verdict (rule : SequenceRule) (events : List (ReplayEvent κ)) : Except PyError Bool :=
  (evaluateSequenceRule P (events.map ReplayEvent.event) rule).map fun found => !found.isEmpty

/-- `bool(evaluate_sequence_rule(candidate, rule)) != case.expected_match`. -/
def differs (rule : SequenceRule) (expectedMatch : Bool) (events : List (ReplayEvent κ)) :
    Except PyError Bool :=
  (verdict P rule events).map (· != expectedMatch)

def minimizeCounterexample (rule : SequenceRule) (case : ReplayCase κ) :
    Except PyError (ReplayCase κ) := do
  if (← verdict P rule case.events) = case.expectedMatch then .ok case
  else
    let minimized ← Minimization.minimize ReplayEvent.identity (differs P rule case.expectedMatch)
      case.events
    .ok { name := case.name ++ lit "-minimized", events := minimized
          expectedMatch := case.expectedMatch }

/-- A wrong case whose events are some of those of the given case, and that is right without any one
event object. -/
structure Minimized (rule : SequenceRule) (case out : ReplayCase κ) : Prop where
  events : out.events.Sublist case.events
  expectedMatch : out.expectedMatch = case.expectedMatch
  wrong : verdict P rule out.events = .ok (!case.expectedMatch)
  minimal : ∀ x ∈ out.events,
    verdict P rule (out.events.filter fun y => y.identity ≠ x.identity) = .ok case.expectedMatch

variable {P}

omit [DecidableEq κ] in
theorem differs_eq_ok {rule : SequenceRule} {expectedMatch b : Bool} {events : List (ReplayEvent κ)} :
    differs P rule expectedMatch events = .ok b ↔
      verdict P rule events = .ok (b != expectedMatch) := by
  unfold differs
  rw [map_eq_ok]
  constructor
  · rintro ⟨v, hv, rfl⟩
    rw [hv]
    simp
  · intro hv
    exact ⟨_, hv, by simp⟩

theorem minimizeCounterexample_of_wrong {rule : SequenceRule} {case : ReplayCase κ}
    (h : verdict P rule case.events = .ok (!case.expectedMatch)) :
    minimizeCounterexample P rule case = (Minimization.minimize ReplayEvent.identity
      (differs P rule case.expectedMatch) case.events).map fun minimized =>
        ⟨case.name ++ lit "-minimized", minimized, case.expectedMatch⟩ := by
  unfold minimizeCounterexample
  rw [h]
  cases Minimization.minimize ReplayEvent.identity (differs P rule case.expectedMatch) case.events
    <;> simp [bind, Except.bind, Except.map]

/-- **Minimized counterexamples.** A case that is right comes back unchanged. A wrong one comes back
minimized, if the evaluation raises for none of its subsequences. -/
theorem counterexample_minimized (P : Platform) (rule : SequenceRule) (case : ReplayCase κ) :
    (verdict P rule case.events = .ok case.expectedMatch →
      minimizeCounterexample P rule case = .ok case) ∧
    (verdict P rule case.events = .ok (!case.expectedMatch) →
      (∀ events, events.Sublist case.events → ∃ v, verdict P rule events = .ok v) →
      ∃ out, minimizeCounterexample P rule case = .ok out ∧ Minimized P rule case out) := by
  constructor
  · intro h
    rw [minimizeCounterexample, h]
    exact if_pos rfl
  · intro h hraises
    have hwrong : differs P rule case.expectedMatch case.events = .ok true := by
      rw [differs_eq_ok, h]
      simp
    rw [minimizeCounterexample_of_wrong h]
    cases hrun : Minimization.minimize ReplayEvent.identity (differs P rule case.expectedMatch)
        case.events with
    | error exc =>
      obtain ⟨events, hsub, hexc⟩ := Minimization.minimize_eq_error hrun
      obtain ⟨v, hv⟩ := hraises events hsub
      rw [differs, hv] at hexc
      cases hexc
    | ok minimized =>
      obtain ⟨hsub, hminimal⟩ := Minimization.minimize_spec hwrong hrun
      refine ⟨_, rfl, hsub, rfl, ?_, fun x hx => ?_⟩
      · rw [differs_eq_ok.mp hminimal.stillWrong, Bool.true_bne]
      · have hright := differs_eq_ok.mp (hminimal.minimal x hx)
        rwa [Bool.false_bne] at hright

end Minimize

/-- A rule that is met by any degradation. -/
def degradedRule : SequenceRule where
  name := lit "degraded"
  stages := [{ eventType := lit "recorder.degraded", «where» := [] }]

/-- Two degradations, where none is expected to be found. -/
def degradedTwice : ReplayCase Nat where
  name := lit "twice"
  events := [⟨0, sampleEvent (sampleText "e1") 0 emptyPayload⟩,
    ⟨1, sampleEvent (sampleText "e2") 1 emptyPayload⟩]
  expectedMatch := false

theorem counterexample_minimized_sample :
    ∃ out, minimizeCounterexample .plain degradedRule degradedTwice = .ok out ∧
      Minimized .plain degradedRule degradedTwice out := by
  refine (counterexample_minimized .plain degradedRule degradedTwice).2 (by decide +kernel) ?_
  intro events hsub
  -- The subsequences: none, the second, the first, both.
  cases hsub with
  | cons _ hrest =>
    cases hrest with
    | cons _ hnil =>
      rw [List.sublist_nil.mp hnil]
      exact exists_of_isOk (by decide +kernel)
    | cons_cons _ hnil =>
      rw [List.sublist_nil.mp hnil]
      exact exists_of_isOk (by decide +kernel)
  | cons_cons _ hrest =>
    cases hrest with
    | cons _ hnil =>
      rw [List.sublist_nil.mp hnil]
      exact exists_of_isOk (by decide +kernel)
    | cons_cons _ hnil =>
      rw [List.sublist_nil.mp hnil]
      exact exists_of_isOk (by decide +kernel)

end ActionLineage
