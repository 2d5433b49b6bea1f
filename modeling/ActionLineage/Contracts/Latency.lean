import ActionLineage.Contracts.Validation
import ActionLineage.Detection.Completeness

/-!
# What a contract's latency requirement says

An end event is compared with the start of its group that is nearest in time, on either side, so a
contract without a latency violation has a start event near every end event (`latency_within`). It
need not have one before it: a start that comes after the end is near as well
(`start_after_end_passes`).
-/

namespace ActionLineage

open Py Contracts

variable {P : Platform}

/-- The codes of a latency requirement. -/
def ViolationCode.isLatency : ViolationCode → Bool
  | latencyEventMissing | latencyStartMissing | latencyBreach => true
  | _ => false

/-- The times differ, in either direction, by no more seconds than the requirement allows: the
difference, as a float, is not greater. -/
def WithinLatency (requirement : ContractLatencyRequirement) (endEvent start : EventEnvelope) :
    Prop :=
  requirement.maxSeconds.lt
    (totalSeconds (distanceMicros endEvent.occurredAt start.occurredAt)) = false

instance (requirement : ContractLatencyRequirement) (endEvent start : EventEnvelope) :
    Decidable (WithinLatency requirement endEvent start) :=
  inferInstanceAs (Decidable (_ = false))

/-- The start event has the requirement's start type and the group of the end event. -/
def StartsFor (P : Platform) (requirement : ContractLatencyRequirement)
    (endEvent start : EventEnvelope) : Prop :=
  start.eventType.val = requirement.startEventType ∧
    ∃ group, Contracts.groupKey P endEvent requirement.groupBy = .ok group ∧
      Contracts.groupKey P start requirement.groupBy = .ok group

/-- `min` returns one of the candidates. -/
theorem nearestStart_mem (endEvent start : EventEnvelope) (starts : List EventEnvelope) :
    nearestStart endEvent start starts ∈ start :: starts := by
  unfold nearestStart
  induction starts generalizing start with
  | nil => exact List.mem_cons_self
  | cons event starts ih =>
    rw [List.foldl_cons]
    split
    · exact List.mem_cons_of_mem _ (ih event)
    · rcases List.mem_cons.mp (ih start) with h | h
      · rw [h]
        exact List.mem_cons_self
      · exact List.mem_cons_of_mem _ (List.mem_cons_of_mem _ h)

theorem mem_eventsOfType {events : List EventEnvelope} {type : Str} {e : EventEnvelope} :
    e ∈ eventsOfType events type ↔ e ∈ events ∧ e.eventType.val = type := by
  simp [eventsOfType]

/-- An end event without a violation has its nearest start within the limit. -/
theorem validateLatencyEnd_eq_nil {requirement : ContractLatencyRequirement}
    {startsByGroup : List (List Str × List EventEnvelope)} {endEvent : EventEnvelope}
    (h : validateLatencyEnd P requirement startsByGroup endEvent = .ok []) :
    ∃ group starts, Contracts.groupKey P endEvent requirement.groupBy = .ok group ∧
      (group, starts) ∈ startsByGroup ∧
      ∃ start ∈ starts, WithinLatency requirement endEvent start := by
  unfold validateLatencyEnd at h
  obtain ⟨group, hgroup, hcheck⟩ := bind_eq_ok.mp h
  split at hcheck
  · cases Except.ok.inj hcheck
  · rename_i start starts hstarts
    dsimp only at hcheck
    split at hcheck
    · cases Except.ok.inj hcheck
    · rename_i hwithin
      have hlookup : startsByGroup.lookup group = some (start :: starts) := by
        cases hentry : startsByGroup.lookup group with
        | none =>
          rw [hentry] at hstarts
          cases hstarts
        | some entry =>
          rw [hentry] at hstarts
          exact congrArg some hstarts
      obtain ⟨before, after, hsplit, -⟩ := List.lookup_eq_some_iff.mp hlookup
      refine ⟨group, start :: starts, hgroup, ?_, nearestStart endEvent start starts,
        nearestStart_mem _ _ _, Bool.eq_false_iff.mpr hwithin⟩
      rw [hsplit]
      exact List.mem_append_right _ List.mem_cons_self

/-- What a latency requirement reports has a code of its own. -/
theorem isLatency_of_mem {events : List EventEnvelope} {requirement : ContractLatencyRequirement}
    {violations : List ContractViolation}
    (h : validateLatencyRequirement P events requirement = .ok violations) {v : ContractViolation}
    (hv : v ∈ violations) : v.code.isLatency = true := by
  unfold validateLatencyRequirement at h
  simp only at h
  split at h
  · obtain rfl := Except.ok.inj h
    rw [List.mem_singleton.mp hv]
    rfl
  · obtain ⟨startsByGroup, -, h⟩ := bind_eq_ok.mp h
    obtain ⟨found, hfound, h⟩ := bind_eq_ok.mp h
    obtain rfl := Except.ok.inj h
    obtain ⟨one, hone, hv⟩ := List.mem_flatten.mp hv
    obtain ⟨endEvent, -, hend⟩ := exists_of_forall₂ (mapM_eq_ok.mp hfound) hone
    unfold validateLatencyEnd at hend
    obtain ⟨group, -, hend⟩ := bind_eq_ok.mp hend
    split at hend
    · obtain rfl := Except.ok.inj hend
      rw [List.mem_singleton.mp hv]
      rfl
    · dsimp only at hend
      split at hend
      · obtain rfl := Except.ok.inj hend
        rw [List.mem_singleton.mp hv]
        rfl
      · obtain rfl := Except.ok.inj hend
        cases hv

theorem validateLatencyRequirement_eq_nil {events : List EventEnvelope}
    {requirement : ContractLatencyRequirement}
    (h : validateLatencyRequirement P events requirement = .ok []) {endEvent : EventEnvelope}
    (hend : endEvent ∈ events) (htype : endEvent.eventType.val = requirement.endEventType) :
    ∃ start ∈ events, StartsFor P requirement endEvent start ∧
      WithinLatency requirement endEvent start := by
  unfold validateLatencyRequirement at h
  simp only at h
  split at h
  · cases Except.ok.inj h
  · obtain ⟨startsByGroup, hgroups, h⟩ := bind_eq_ok.mp h
    obtain ⟨found, hfound, h⟩ := bind_eq_ok.mp h
    have hnone : ∀ one ∈ found, one = [] := List.flatten_eq_nil_iff.mp (Except.ok.inj h)
    obtain ⟨one, hone, hcheck⟩ := forall₂_mem_left (mapM_eq_ok.mp hfound)
      (mem_eventsOfType.mpr ⟨hend, htype⟩)
    rw [hnone one hone] at hcheck
    obtain ⟨group, starts, hgroup, hentry, start, hstart, hwithin⟩ :=
      validateLatencyEnd_eq_nil hcheck
    obtain ⟨hstart, hsame⟩ := mem_of_foldlM_appendAt hgroups hentry hstart
    obtain ⟨hstart, hstartType⟩ := mem_eventsOfType.mp hstart
    exact ⟨start, hstart, ⟨hstartType, group, hgroup, hsame⟩, hwithin⟩

/-- A result without a latency violation has passed every latency requirement. -/
theorem latency_of_validateContract {events : List EventEnvelope} {contract : LineageContract}
    {detections : List DetectionMatch} {verification : Option VerificationResult}
    {result : ContractResult}
    (h : validateContract P events contract detections verification = .ok result)
    (hnone : ∀ v ∈ result.violations, v.code.isLatency = false)
    {requirement : ContractLatencyRequirement}
    (hrequirement : requirement ∈ contract.latencyRequirements) :
    validateLatencyRequirement P events requirement = .ok [] := by
  unfold validateContract at h
  obtain ⟨objects, -, h⟩ := bind_eq_ok.mp h
  obtain ⟨required, -, h⟩ := bind_eq_ok.mp h
  obtain ⟨relationships, -, h⟩ := bind_eq_ok.mp h
  obtain ⟨evidenceLinks, -, h⟩ := bind_eq_ok.mp h
  obtain ⟨latencies, hlatencies, h⟩ := bind_eq_ok.mp h
  obtain ⟨descriptors, -, h⟩ := bind_eq_ok.mp h
  obtain rfl := Except.ok.inj h
  obtain ⟨violations, hmem, hchecked⟩ :=
    forall₂_mem_left (mapM_eq_ok.mp hlatencies) hrequirement
  have hnil : violations = [] := by
    rw [List.eq_nil_iff_forall_not_mem]
    intro v hv
    have hcode := hnone v (by
      simp only [List.mem_append, List.mem_flatten]
      exact .inl (.inl (.inl (.inl (.inr ⟨violations, hmem, hv⟩)))))
    rw [isLatency_of_mem hchecked hv] at hcode
    cases hcode
  rw [hchecked, hnil]

/-- **Latency obligations.** Where validation reports no latency violation, every end event has a
start event of its group within the limit, before or after it. -/
theorem latency_within (P : Platform) (events : List EventEnvelope) (contract : LineageContract)
    (detections : List DetectionMatch) (verification : Option VerificationResult)
    (result : ContractResult)
    (h : validateContract P events contract detections verification = .ok result)
    (hnone : ∀ v ∈ result.violations, v.code.isLatency = false)
    (requirement : ContractLatencyRequirement)
    (hrequirement : requirement ∈ contract.latencyRequirements) (endEvent : EventEnvelope)
    (hend : endEvent ∈ events) (htype : endEvent.eventType.val = requirement.endEventType) :
    ∃ start ∈ events, StartsFor P requirement endEvent start ∧
      WithinLatency requirement endEvent start :=
  validateLatencyRequirement_eq_nil (latency_of_validateContract h hnone hrequirement) hend htype

/-- From the start of a run to its degradation, ten seconds. -/
def quickDegradationLatency : ContractLatencyRequirement where
  startEventType := lit "agent.run.started"
  endEventType := lit "recorder.degraded"
  maxSeconds := .ofRatio false 10 1

def latencyContract : LineageContract where
  name := lit "latency"
  events := []
  latencyRequirements := [quickDegradationLatency]
  hashChainRequired := false

theorem latency_within_sample :
    ∃ start ∈ [runStart, runDegraded],
      StartsFor .plain quickDegradationLatency runDegraded start ∧
        WithinLatency quickDegradationLatency runDegraded start := by
  obtain ⟨result, hresult, hnone⟩ := map_eq_ok.mp (show (validateContract .plain
    [runStart, runDegraded] latencyContract [] none).map (·.violations) = .ok []
      by decide +kernel)
  exact latency_within .plain _ _ _ _ result hresult (by rw [hnone]; simp)
    quickDegradationLatency (by simp [latencyContract]) runDegraded (by simp) rfl

/-- A degradation five seconds before the only start of its run. -/
def earlyDegraded : EventEnvelope :=
  runEvent (sampleText "e3") (sampleText "recorder.degraded") degraded_documented 2 ⟨35, by decide⟩

/-- A run that starts after it degraded has no latency violation. -/
theorem start_after_end_passes :
    ∃ result, validateContract .plain [earlyDegraded, runStart] latencyContract [] none = .ok result ∧
      result.violations = [] ∧
      ¬ ∃ start ∈ [earlyDegraded, runStart],
        StartsFor .plain quickDegradationLatency earlyDegraded start ∧
          start.occurredAt.toMicros ≤ earlyDegraded.occurredAt.toMicros ∧
            WithinLatency quickDegradationLatency earlyDegraded start := by
  obtain ⟨result, hresult, hnone⟩ := map_eq_ok.mp (show (validateContract .plain
    [earlyDegraded, runStart] latencyContract [] none).map (·.violations) = .ok []
      by decide +kernel)
  refine ⟨result, hresult, hnone, ?_⟩
  rintro ⟨start, hstart, ⟨htype, -⟩, hbefore, -⟩
  rcases List.mem_cons.mp hstart with rfl | hstart
  · exact absurd htype (by decide +kernel)
  · rw [List.mem_singleton.mp hstart] at hbefore
    exact absurd hbefore (by decide +kernel)

end ActionLineage
