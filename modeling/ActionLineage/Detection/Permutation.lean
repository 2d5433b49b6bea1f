import ActionLineage.Detection.Completeness
import ActionLineage.Py.Reordering

/-!
# Detection does not depend on the order of delivery

When no two events share occurrence time, sequence and id, sorting a group forgets the order its
events arrived in. Everything behind the sort depends on the sorted group alone, so evaluating a
rule on a permutation of the events returns the same matches up to their order, and explaining it
returns the same groups, stages and candidates (`detection_perm`).
-/

namespace ActionLineage

open Py

variable {P : Platform} {events events' : List EventEnvelope}

/-! ## One group -/

theorem sortEvents_perm (hp : events.Perm events')
    (hkeys : (events.map EventEnvelope.sortKey).Nodup) : sortEvents events = sortEvents events' :=
  insertionSort_eq_of_perm hp hkeys

theorem sortEvents_idem (events : List EventEnvelope) :
    sortEvents (sortEvents events) = sortEvents events :=
  (List.pairwise_insertionSort _ events).insertionSort_eq

/-- A group with its events in order. -/
def sortedGroup : List Str × List EventEnvelope → List Str × List EventEnvelope :=
  Prod.map id sortEvents

theorem evaluateGroup_sortedGroup (rule : SequenceRule) (stage : SequenceStage)
    (later : List SequenceStage) (group : List Str × List EventEnvelope) :
    evaluateGroup P rule stage later (sortedGroup group) = evaluateGroup P rule stage later group := by
  unfold evaluateGroup sortedGroup
  simp only [Prod.map_fst, Prod.map_snd, id_eq, sortEvents_idem]

theorem explainGroup_sortedGroup (stages : List SequenceStage)
    (group : List Str × List EventEnvelope) :
    explainGroup P stages (sortedGroup group) = explainGroup P stages group := by
  unfold explainGroup sortedGroup
  simp only [Prod.map_fst, Prod.map_snd, id_eq, sortEvents_idem]

/-- What only looks at sorted groups can be handed sorted groups. -/
theorem mapM_sortedGroup {β : Type} {f : List Str × List EventEnvelope → Except PyError β}
    (hf : ∀ group, f (sortedGroup group) = f group)
    (grouped : List (List Str × List EventEnvelope)) :
    grouped.mapM f = (grouped.map sortedGroup).mapM f := by
  rw [List.mapM_map]
  exact congrArg (fun g => grouped.mapM g) (funext fun group => (hf group).symm)

/-! ## All groups -/

/-- Grouping a permutation returns the same groups, in another order and each in another order. -/
theorem groupEvents_perm {groupBy : List Str} {grouped : List (List Str × List EventEnvelope)}
    (hp : events.Perm events') (hkeys : (events.map EventEnvelope.sortKey).Nodup)
    (h : groupEvents P events groupBy = .ok grouped) :
    ∃ grouped', groupEvents P events' groupBy = .ok grouped' ∧
      (grouped.map sortedGroup).Perm (grouped'.map sortedGroup) ∧
      (grouped.map Prod.fst).Nodup ∧ (grouped'.map Prod.fst).Nodup := by
  obtain ⟨hreturn, hgroups⟩ := groupEvents_eq_ok h
  have hreturn' : ∀ e ∈ events', ∃ key, groupKey P groupBy e = .ok key :=
    fun e he => hreturn e (hp.mem_iff.mpr he)
  obtain ⟨grouped', h'⟩ := groupEvents_isOk hreturn'
  obtain ⟨-, hgroups'⟩ := groupEvents_eq_ok h'
  refine ⟨grouped', h', hgroups.map_perm hgroups' hp fun k => ?_, hgroups.nodup, hgroups'.nodup⟩
  apply sortEvents_perm (hp.filter _)
  exact hkeys.sublist (List.filter_sublist.map _)

theorem evaluateSequenceRule_perm (hp : events.Perm events')
    (hkeys : (events.map EventEnvelope.sortKey).Nodup) (rule : SequenceRule) :
    SameOutcome List.Perm (evaluateSequenceRule P events rule)
      (evaluateSequenceRule P events' rule) := by
  unfold evaluateSequenceRule
  cases rule.stages with
  | nil => exact .nil
  | cons stage later =>
    cases hgrouped : groupEvents P events rule.groupBy with
    | error exc =>
      cases hgrouped' : groupEvents P events' rule.groupBy with
      | error exc' => trivial
      | ok grouped' =>
        have hkeys' := (hp.map EventEnvelope.sortKey).nodup_iff.mp hkeys
        obtain ⟨grouped, h, -⟩ := groupEvents_perm hp.symm hkeys' hgrouped'
        rw [hgrouped] at h
        cases h
    | ok grouped =>
      obtain ⟨grouped', hgrouped', hperm, -⟩ := groupEvents_perm hp hkeys hgrouped
      -- behind the sort, the groups are the same up to their order
      have hsame := mapM_perm (f := evaluateGroup P rule stage later) hperm
      rw [← mapM_sortedGroup (evaluateGroup_sortedGroup rule stage later) grouped,
        ← mapM_sortedGroup (evaluateGroup_sortedGroup rule stage later) grouped'] at hsame
      simp only [hgrouped', bind, Except.bind]
      revert hsame
      cases grouped.mapM (evaluateGroup P rule stage later) <;>
        cases grouped'.mapM (evaluateGroup P rule stage later)
      · exact id
      · exact id
      · exact id
      · exact fun h => h.flatten

/-! ## Explanations -/

theorem sortGroups_perm {grouped grouped' : List (List Str × List EventEnvelope)}
    (hperm : (grouped.map sortedGroup).Perm (grouped'.map sortedGroup))
    (hn : (grouped.map Prod.fst).Nodup) :
    (sortGroups grouped).map sortedGroup = (sortGroups grouped').map sortedGroup := by
  have hsorted (l : List (List Str × List EventEnvelope)) :
      ((sortGroups l).map sortedGroup).Pairwise fun a b => a.1 ≤ b.1 := by
    have : Std.Total fun a b : List Str × List EventEnvelope => a.1 ≤ b.1 :=
      ⟨fun a b => le_total _ _⟩
    have : IsTrans (List Str × List EventEnvelope) fun a b => a.1 ≤ b.1 :=
      ⟨fun _ _ _ => le_trans⟩
    rw [List.pairwise_map]
    exact List.pairwise_insertionSort _ l
  have hsort (l : List (List Str × List EventEnvelope)) :
      ((sortGroups l).map sortedGroup).Perm (l.map sortedGroup) :=
    (List.perm_insertionSort _ l).map _
  refine @eq_of_perm_of_sorted _ _ _ Prod.fst _ _ ((hsort _).trans (hperm.trans (hsort _).symm)) ?_
    (hsorted _) (hsorted _)
  -- sorting groups and events leaves the keys
  rw [((hsort grouped).map Prod.fst).nodup_iff, List.map_map]
  exact hn

/-- The same rule, the same number of events, the same matches up to their order, and the same
groups with the same stages and candidates. -/
structure RuleExplanation.SameUpToOrder (x y : RuleExplanation) : Prop where
  ruleName : x.ruleName = y.ruleName
  ruleId : x.ruleId = y.ruleId
  totalEvents : x.totalEvents = y.totalEvents
  perm : x.«matches».Perm y.«matches»
  groups : x.groups = y.groups

theorem explainSequenceRule_perm (hp : events.Perm events')
    (hkeys : (events.map EventEnvelope.sortKey).Nodup) (rule : SequenceRule) :
    SameOutcome RuleExplanation.SameUpToOrder (explainSequenceRule P events rule)
      (explainSequenceRule P events' rule) := by
  have hkeys' := (hp.map EventEnvelope.sortKey).nodup_iff.mp hkeys
  have hmatches := evaluateSequenceRule_perm (P := P) hp hkeys rule
  unfold explainSequenceRule
  cases hfound : evaluateSequenceRule P events rule with
  | error exc =>
    cases hfound' : evaluateSequenceRule P events' rule with
    | error exc' => trivial
    | ok found' => simp only [hfound, hfound', SameOutcome] at hmatches
  | ok found =>
    cases hfound' : evaluateSequenceRule P events' rule with
    | error exc' => simp only [hfound, hfound', SameOutcome] at hmatches
    | ok found' =>
      rw [hfound, hfound'] at hmatches
      cases hgrouped : groupEvents P events rule.groupBy with
      | error exc =>
        cases hgrouped' : groupEvents P events' rule.groupBy with
        | error exc' => trivial
        | ok grouped' =>
          obtain ⟨grouped, h, -⟩ := groupEvents_perm hp.symm hkeys' hgrouped'
          rw [hgrouped] at h
          cases h
      | ok grouped =>
        obtain ⟨grouped', hgrouped', hperm, hn, -⟩ := groupEvents_perm hp hkeys hgrouped
        have hgroups : (sortGroups grouped).mapM (explainGroup P rule.stages) =
            (sortGroups grouped').mapM (explainGroup P rule.stages) := by
          rw [mapM_sortedGroup (explainGroup_sortedGroup rule.stages), sortGroups_perm hperm hn,
            ← mapM_sortedGroup (explainGroup_sortedGroup rule.stages)]
        simp only [hgrouped', bind, Except.bind, hgroups]
        cases (sortGroups grouped').mapM (explainGroup P rule.stages) with
        | error exc => trivial
        | ok groups => exact ⟨rfl, rfl, hp.length_eq, hmatches, rfl⟩

/-- Evaluating and explaining a rule on a permutation of events with pairwise distinct keys. -/
theorem detection_perm (hp : events.Perm events')
    (hkeys : (events.map EventEnvelope.sortKey).Nodup) (rule : SequenceRule) :
    SameOutcome List.Perm (evaluateSequenceRule P events rule)
      (evaluateSequenceRule P events' rule) ∧
    SameOutcome RuleExplanation.SameUpToOrder (explainSequenceRule P events rule)
      (explainSequenceRule P events' rule) :=
  ⟨evaluateSequenceRule_perm hp hkeys rule, explainSequenceRule_perm hp hkeys rule⟩

theorem detection_perm_sample :
    let events := [decoyStart, runStart, runDegraded]
    let events' := [runDegraded, decoyStart, runStart]
    SameOutcome List.Perm (evaluateSequenceRule .plain events quickDegradation)
      (evaluateSequenceRule .plain events' quickDegradation) ∧
    SameOutcome RuleExplanation.SameUpToOrder
      (explainSequenceRule .plain events quickDegradation)
      (explainSequenceRule .plain events' quickDegradation) :=
  detection_perm (@List.perm_append_comm _ [decoyStart, runStart] [runDegraded])
    (by decide +kernel) quickDegradation

end ActionLineage
