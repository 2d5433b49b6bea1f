import ActionLineage.Detection.OrderedMatch
import ActionLineage.Reference

/-!
# Completeness of ordered detection

A group holds an ordered detection when some of its events, in the engine's order, satisfy the
stages one by one within the window (`OrderedSelection`). The engine answers with a match for the
group exactly when, besides, nothing raises and one block of the group fits the window
(`ordered_detection_iff`): the scan commits to the first candidate of the first stage of each block,
so an early decoy can push every block out of the window (`decoy_hides_detection`).
-/

namespace ActionLineage

open Py OrderedScan

/-- The events of a correlation group in the engine's order. -/
def correlationGroup (P : Platform) (rule : SequenceRule) (events : List EventEnvelope)
    (key : List Str) : List EventEnvelope :=
  sortEvents (events.filter fun e => groupKey P rule.groupBy e = .ok key)

/-- Events of a group, in the engine's order, that satisfy the stages one by one and whose earliest
and latest instants are at most the window apart. -/
structure OrderedSelection (P : Platform) (rule : SequenceRule) (group : List EventEnvelope)
    (selected : List EventEnvelope) : Prop where
  ne_nil : selected ≠ []
  sublist : selected.Sublist group
  satisfies : List.Forall₂ (Satisfies P) rule.stages selected
  window : ∀ limit, rule.withinSeconds = some limit → ∃ first last,
    (occurrences selected).min? = some first ∧ (occurrences selected).max? = some last ∧
      (secondsBetween first last).le limit = true

/-- The rule has an ordered detection in the group of the key. -/
def Detectable (P : Platform) (rule : SequenceRule) (events : List EventEnvelope)
    (key : List Str) : Prop :=
  ∃ selected, OrderedSelection P rule (correlationGroup P rule events key) selected

/-- Evaluating the rule answers every group that has an ordered detection. -/
def DetectsAll (P : Platform) (rule : SequenceRule) (events : List EventEnvelope) : Prop :=
  ∀ key, Detectable P rule events key →
    ∃ found, evaluateSequenceRule P events rule = .ok found ∧ ∃ m ∈ found, m.groupKey = key

/-- Every event has a key, and no test that is due raises. -/
def EvaluationReturns (P : Platform) (rule : SequenceRule) (events : List EventEnvelope) : Prop :=
  (∀ e ∈ events, ∃ key, groupKey P rule.groupBy e = .ok key) ∧
    ∀ key, TestsReturn P rule.stages (correlationGroup P rule events key)

/-- Some block of the group fits the window. -/
def HasFittingBlock (P : Platform) (rule : SequenceRule) (group : List EventEnvelope) : Prop :=
  ∃ stage later, rule.stages = stage :: later ∧
    FittingBlock P stage later rule.withinSeconds group

variable {P : Platform} {rule : SequenceRule} {events : List EventEnvelope}
  {stage : SequenceStage} {later : List SequenceStage}

/-! ## Groups -/

theorem sortEvents_occurredInOrder (events : List EventEnvelope) :
    OccurredInOrder (sortEvents events) := by
  have hsorted : (sortEvents events).Pairwise fun a b => a.sortKey ≤ b.sortKey :=
    List.pairwise_insertionSort _ events
  refine hsorted.imp fun {a b} h => ?_
  rcases Prod.Lex.le_iff.mp h with hlt | ⟨heq, -⟩
  · exact le_of_lt hlt
  · exact le_of_eq heq

/-- The key of an event, where it has one. -/
def keyOr (P : Platform) (groupBy : List Str) (event : EventEnvelope) : List Str :=
  (groupKey P groupBy event).toOption.getD []

theorem keyOr_eq {groupBy : List Str} {event : EventEnvelope} {key : List Str}
    (h : groupKey P groupBy event = .ok key) : keyOr P groupBy event = key := by
  rw [keyOr, h]
  rfl

theorem groupEvents_concat (events : List EventEnvelope) (event : EventEnvelope)
    (groupBy : List Str) :
    groupEvents P (events ++ [event]) groupBy = (do
      let grouped ← groupEvents P events groupBy
      let key ← groupKey P groupBy event
      .ok (appendAt key event grouped)) := by
  simp only [groupEvents, List.foldlM_append, List.foldlM_cons, List.foldlM_nil, bind_pure]

theorem groupEvents_eq_ok {groupBy : List Str} {grouped : List (List Str × List EventEnvelope)}
    (h : groupEvents P events groupBy = .ok grouped) :
    (∀ e ∈ events, ∃ key, groupKey P groupBy e = .ok key) ∧
      GroupsOf (keyOr P groupBy) events grouped :=
  groupsOf_foldlM h

theorem groupEvents_isOk {groupBy : List Str}
    (h : ∀ e ∈ events, ∃ key, groupKey P groupBy e = .ok key) :
    ∃ grouped, groupEvents P events groupBy = .ok grouped := by
  induction events using List.reverseRecOn with
  | nil => exact ⟨[], rfl⟩
  | append_singleton events event ih =>
    obtain ⟨before, hbefore⟩ := ih fun e he => h e (List.mem_append_left _ he)
    obtain ⟨key, hkey⟩ := h event (by simp)
    refine ⟨appendAt key event before, ?_⟩
    rw [groupEvents_concat, hbefore]
    simp only [bind, Except.bind, hkey]

/-- The entries of the grouped events are the groups that are not empty. -/
theorem mem_groupEvents {grouped : List (List Str × List EventEnvelope)}
    (h : groupEvents P events rule.groupBy = .ok grouped) {key : List Str}
    {group : List EventEnvelope} :
    (key, group) ∈ grouped ↔ group ≠ [] ∧ sortEvents group = correlationGroup P rule events key ∧
      group = events.filter fun e => groupKey P rule.groupBy e = .ok key := by
  obtain ⟨hkeys, hgroups⟩ := groupEvents_eq_ok h
  have hfilter : (events.filter fun e => keyOr P rule.groupBy e = key)
      = events.filter fun e => groupKey P rule.groupBy e = .ok key := by
    refine List.filter_congr fun e he => ?_
    obtain ⟨k, hk⟩ := hkeys e he
    simp [keyOr_eq hk, hk]
  rw [hgroups.mem_iff, hfilter]
  constructor
  · rintro ⟨hne, rfl⟩
    exact ⟨hne, rfl, rfl⟩
  · rintro ⟨hne, -, heq⟩
    exact ⟨hne, heq⟩

/-- Events of one key, already in order, are their own group. -/
theorem correlationGroup_of_sorted {key : List Str}
    (hkeys : ∀ e ∈ events, groupKey P rule.groupBy e = .ok key)
    (hsorted : events.Pairwise fun a b => a.sortKey ≤ b.sortKey) :
    correlationGroup P rule events key = events := by
  have hfilter : (events.filter fun e => groupKey P rule.groupBy e = .ok key) = events :=
    List.filter_eq_self.mpr fun e he => by simp [hkeys e he]
  rw [correlationGroup, hfilter]
  exact hsorted.insertionSort_eq

/-! ## Without suppression every match is emitted once -/

theorem suppressAndDedupe_ok (hseconds : rule.suppressionSeconds = none)
    (hkey : rule.suppressionKey = []) (key : List Str) {found : List (List EventEnvelope)}
    (hne : ∀ m ∈ found, m ≠ []) (seen : List (List Str)) (last : List (List Str × DateTime)) :
    ∃ emitted, suppressAndDedupe P rule key found seen last = .ok emitted ∧
      (seen = [] → (emitted = [] ↔ found = [])) := by
  induction found generalizing seen last with
  | nil => exact ⟨[], rfl, fun _ => Iff.rfl⟩
  | cons matched found ih =>
    have hrest : ∀ m ∈ found, m ≠ [] := fun m hm => hne m (List.mem_cons_of_mem _ hm)
    have hmatched : occurrences matched ≠ [] := by
      simpa [occurrences] using hne matched List.mem_cons_self
    obtain ⟨first, hfirst⟩ := Option.isSome_iff_exists.mp (List.isSome_min?_of_ne_nil hmatched)
    have hread : suppressionKey P rule key matched = .ok key := by
      unfold suppressionKey
      rw [hkey]
    have hkept : suppressed rule (last.lookup key) first = false := by
      unfold suppressed
      rw [hseconds]
    unfold suppressAndDedupe
    by_cases hdup : (rule.deduplicate && seen.contains (matched.map fun e => e.eventId.val)) = true
    · obtain ⟨emitted, hemitted, -⟩ := ih hrest seen last
      refine ⟨emitted, by simpa only [hdup, if_true] using hemitted, ?_⟩
      rintro rfl
      simp at hdup
    · obtain ⟨emitted, hemitted, -⟩ :=
        ih hrest ((matched.map fun e => e.eventId.val) :: seen) ((key, first) :: last)
      refine ⟨matched :: emitted, ?_, by simp⟩
      simp only [hdup, hread, bind, Except.bind, hfirst, hkept, hemitted]
      rfl

/-! ## The evaluation -/

/-- What the evaluation of one group reports. -/
def GroupReports (P : Platform) (rule : SequenceRule) (stage : SequenceStage)
    (later : List SequenceStage) (key : List Str) (group : List EventEnvelope) :
    Except PyError (List DetectionMatch) → Prop
  | .error _ => ¬ TestsReturn P (stage :: later) group
  | .ok found =>
    TestsReturn P (stage :: later) group ∧
      (found ≠ [] ↔ FittingBlock P stage later rule.withinSeconds group) ∧
        ∀ m ∈ found, m.groupKey = key

theorem evaluateGroup_reports (hordered : rule.ordered = true)
    (hseconds : rule.suppressionSeconds = none) (hkey : rule.suppressionKey = [])
    (hone : later = [] → ∀ a, WithinLimit rule.withinSeconds a a) (key : List Str)
    (group : List EventEnvelope) :
    GroupReports P rule stage later key (sortEvents group)
      (evaluateGroup P rule stage later (key, group)) := by
  have hreports : MatcherReports P stage later rule.withinSeconds (sortEvents group)
      (matchOrdered P stage later rule.withinSeconds (sortEvents group).length (sortEvents group)) :=
    matchOrdered_reports (le_refl _) (sortEvents_occurredInOrder group) hone
  unfold evaluateGroup
  simp only [hordered, if_true]
  cases hmatched : matchOrdered P stage later rule.withinSeconds (sortEvents group).length
      (sortEvents group) with
  | error exc =>
    rw [hmatched] at hreports
    exact hreports
  | ok found =>
    rw [hmatched] at hreports
    obtain ⟨htests, hfit, hne⟩ := hreports
    obtain ⟨emitted, hemitted, hnil⟩ :=
      suppressAndDedupe_ok (P := P) hseconds hkey key hne [] []
    simp only [bind, Except.bind, hemitted]
    refine ⟨htests, ?_, ?_⟩
    · rw [← hfit, ne_eq, List.map_eq_nil_iff, hnil rfl]
    · intro m hm
      obtain ⟨_, -, rfl⟩ := List.mem_map.mp hm
      rfl

/-- What the evaluation of a rule reports. -/
def EvaluationReports (P : Platform) (rule : SequenceRule) (events : List EventEnvelope) :
    Except PyError (List DetectionMatch) → Prop
  | .error _ => ¬ EvaluationReturns P rule events
  | .ok found =>
    EvaluationReturns P rule events ∧ ∀ key, (∃ m ∈ found, m.groupKey = key) ↔
      HasFittingBlock P rule (correlationGroup P rule events key)

theorem testsReturn_nil (stages : List SequenceStage) : TestsReturn P stages [] := by
  intro left hleft s e hd
  cases stages with
  | nil => exact absurd hd not_dueAt_of_no_stage
  | cons stage later =>
    obtain rfl := (reaches_iff_of_not_contains not_contains_nil).mp hleft
    exact absurd hd not_dueAt_nil

/-- The evaluation of a rule, group by group. -/
def EvaluatesGroups (P : Platform) (rule : SequenceRule) (stage : SequenceStage)
    (later : List SequenceStage) (events : List EventEnvelope) :
    Except PyError (List DetectionMatch) → Prop
  | .error _ => (∀ e ∈ events, ∃ key, groupKey P rule.groupBy e = .ok key) →
      ∃ key exc, evaluateGroup P rule stage later
        (key, events.filter fun e => groupKey P rule.groupBy e = .ok key) = .error exc
  | .ok found =>
    (∀ e ∈ events, ∃ key, groupKey P rule.groupBy e = .ok key) ∧
      (∀ key, (events.filter fun e => groupKey P rule.groupBy e = .ok key) ≠ [] →
        ∃ ms, evaluateGroup P rule stage later
          (key, events.filter fun e => groupKey P rule.groupBy e = .ok key) = .ok ms ∧ ms ⊆ found) ∧
      ∀ m ∈ found, ∃ key ms, evaluateGroup P rule stage later
        (key, events.filter fun e => groupKey P rule.groupBy e = .ok key) = .ok ms ∧ m ∈ ms

theorem evaluateSequenceRule_groups (hstages : rule.stages = stage :: later) :
    EvaluatesGroups P rule stage later events (evaluateSequenceRule P events rule) := by
  unfold evaluateSequenceRule
  simp only [hstages]
  cases hgrouped : groupEvents P events rule.groupBy with
  | error exc =>
    intro hkeys
    obtain ⟨grouped, hok⟩ := groupEvents_isOk hkeys
    rw [hok] at hgrouped
    cases hgrouped
  | ok grouped =>
    obtain ⟨hkeys, -⟩ := groupEvents_eq_ok hgrouped
    cases hmap : grouped.mapM (evaluateGroup P rule stage later) with
    | error exc =>
      obtain ⟨⟨key, group⟩, hmem, herr⟩ := mapM_eq_error hmap
      obtain ⟨-, -, rfl⟩ := (mem_groupEvents hgrouped).mp hmem
      simp only [bind, Except.bind, hmap]
      exact fun _ => ⟨key, exc, herr⟩
    | ok found =>
      have hfound := mapM_eq_ok.mp hmap
      simp only [bind, Except.bind, hmap]
      refine ⟨hkeys, fun key hne => ?_, fun m hm => ?_⟩
      · obtain ⟨ms, hms, heval⟩ := forall₂_mem_left hfound
          ((mem_groupEvents hgrouped).mpr ⟨hne, rfl, rfl⟩)
        exact ⟨ms, heval, fun m hm => List.mem_flatten.mpr ⟨ms, hms, hm⟩⟩
      · obtain ⟨ms, hms, hm⟩ := List.mem_flatten.mp hm
        obtain ⟨⟨key, group⟩, hmem, heval⟩ := exists_of_forall₂ hfound hms
        obtain ⟨-, -, rfl⟩ := (mem_groupEvents hgrouped).mp hmem
        exact ⟨key, ms, heval, hm⟩

theorem evaluateSequenceRule_reports (hstages : rule.stages = stage :: later)
    (hordered : rule.ordered = true) (hseconds : rule.suppressionSeconds = none)
    (hkey : rule.suppressionKey = [])
    (hone : later = [] → ∀ a, WithinLimit rule.withinSeconds a a) :
    EvaluationReports P rule events (evaluateSequenceRule P events rule) := by
  have hgroup : ∀ key, GroupReports P rule stage later key (correlationGroup P rule events key)
      (evaluateGroup P rule stage later
        (key, events.filter fun e => groupKey P rule.groupBy e = .ok key)) :=
    fun key => evaluateGroup_reports hordered hseconds hkey hone key _
  have hgroups := @evaluateSequenceRule_groups P _ events _ _ hstages
  cases heval : evaluateSequenceRule P events rule with
  | error exc =>
    rw [heval] at hgroups
    rintro ⟨hkeys, htests⟩
    obtain ⟨key, exc', herr⟩ := hgroups hkeys
    have hreports := hgroup key
    rw [herr] at hreports
    exact hreports (hstages ▸ htests key)
  | ok found =>
    rw [heval] at hgroups
    obtain ⟨hkeys, hall, hfrom⟩ := hgroups
    refine ⟨⟨hkeys, fun key => ?_⟩, fun key => ⟨?_, ?_⟩⟩
    · by_cases hempty : (events.filter fun e => groupKey P rule.groupBy e = .ok key) = []
      · rw [correlationGroup, hempty]
        exact testsReturn_nil _
      · obtain ⟨ms, hms, -⟩ := hall key hempty
        have hreports := hgroup key
        rw [hms] at hreports
        exact hstages ▸ hreports.1
    · rintro ⟨m, hm, rfl⟩
      obtain ⟨key, ms, hms, hm⟩ := hfrom m hm
      have hreports := hgroup key
      rw [hms] at hreports
      obtain ⟨-, hfit, hkeys⟩ := hreports
      rw [hkeys m hm]
      exact ⟨stage, later, hstages, hfit.mp (List.ne_nil_of_mem hm)⟩
    · rintro ⟨stage', later', hstages', hfit⟩
      obtain ⟨rfl, rfl⟩ := List.cons.inj (hstages.symm.trans hstages')
      have hempty : (events.filter fun e => groupKey P rule.groupBy e = .ok key) ≠ [] := by
        intro hempty
        rw [correlationGroup, hempty] at hfit
        exact not_fittingBlock not_contains_nil hfit
      obtain ⟨ms, hms, hsub⟩ := hall key hempty
      have hreports := hgroup key
      rw [hms] at hreports
      obtain ⟨-, hfits, hkeys⟩ := hreports
      obtain ⟨m, hm⟩ := List.exists_mem_of_ne_nil _ (hfits.mpr hfit)
      exact ⟨m, hsub hm, hkeys m hm⟩

/-- For a rule of one stage, a selection shows that the window admits a single instant. -/
theorem withinLimit_self (hstages : rule.stages = [stage]) {group selected : List EventEnvelope}
    (h : OrderedSelection P rule group selected) (a : EventEnvelope) :
    WithinLimit rule.withinSeconds a a := by
  intro limit hlimit
  obtain ⟨first, last, hfirst, hlast, hle⟩ := h.window limit hlimit
  have hsat := h.satisfies
  rw [hstages] at hsat
  cases hsat with
  | @cons _ b _ _ _ hrest =>
    cases hrest
    obtain rfl : b.occurredAt = first := Option.some.inj hfirst
    obtain rfl : b.occurredAt = last := Option.some.inj hlast
    rwa [secondsBetween_self] at hle ⊢

/-! ## A start, another start and a degradation -/

/-- A root event of the run `r`, so many seconds after the sample minute began. -/
def runEvent (id type : Text) (h : type.val ∈ documentedRootEventTypes) (sequence : Nat)
    (second : Fin 60) : EventEnvelope :=
  { sampleEvent id sequence emptyPayload with
    eventType := type
    occurredAt := { sampleTime with second := second.val, second_lt := second.isLt }
    causalityOk := fun _ => ⟨h, rfl⟩ }

def decoyStart : EventEnvelope :=
  runEvent (sampleText "e1") (sampleText "agent.run.started") (by decide) 0 0

def runStart : EventEnvelope :=
  runEvent (sampleText "e2") (sampleText "agent.run.started") (by decide) 1 40

def runDegraded : EventEnvelope :=
  runEvent (sampleText "e3") (sampleText "recorder.degraded") degraded_documented 2 45

/-- A run that degrades within ten seconds of a start. -/
def quickDegradation : SequenceRule where
  name := lit "quick"
  stages := [{ eventType := lit "agent.run.started", «where» := [] },
    { eventType := lit "recorder.degraded", «where» := [] }]
  withinSeconds := some (.ofRatio false 10 1)

theorem quickDegradation_selection (before : List EventEnvelope)
    (hgroup : ∀ e ∈ before ++ [runStart, runDegraded],
      groupKey .plain quickDegradation.groupBy e = .ok [lit "r"])
    (hsorted : (before ++ [runStart, runDegraded]).Pairwise fun a b => a.sortKey ≤ b.sortKey) :
    Detectable .plain quickDegradation (before ++ [runStart, runDegraded]) [lit "r"] := by
  have hlist : correlationGroup .plain quickDegradation (before ++ [runStart, runDegraded])
      [lit "r"] = before ++ [runStart, runDegraded] := correlationGroup_of_sorted hgroup hsorted
  refine ⟨[runStart, runDegraded], by simp, ?_, .cons ?_ (.cons ?_ .nil), ?_⟩
  · rw [hlist]
    exact List.sublist_append_right _ _
  · change eventMatchesStage _ _ _ = _
    decide +kernel
  · change eventMatchesStage _ _ _ = _
    decide +kernel
  · rintro limit h
    obtain rfl := Option.some.inj h
    exact ⟨runStart.occurredAt, runDegraded.occurredAt, by decide +kernel, by decide +kernel,
      by decide +kernel⟩

/-! ## Completeness -/

/-- Without a window every detection is found, whatever other events the group has. -/
theorem hasFittingBlock_of_no_window (hwindow : rule.withinSeconds = none) {key : List Str}
    (h : Detectable P rule events key) :
    HasFittingBlock P rule (correlationGroup P rule events key) := by
  obtain ⟨selected, hselected⟩ := h
  cases hstages : rule.stages with
  | nil =>
    have hsat := hselected.satisfies
    rw [hstages] at hsat
    cases hsat
    exact absurd rfl hselected.ne_nil
  | cons stage later =>
    have hcontains : Contains (Satisfies P) (stage :: later)
        (correlationGroup P rule events key) :=
      List.sublistForall₂_iff.mpr ⟨selected, hstages ▸ hselected.satisfies, hselected.sublist⟩
    obtain ⟨seg, rest, a, z, hgroup, hb, hbounds⟩ := exists_block hcontains
    refine ⟨stage, later, hstages, seg, rest, a, z, ?_, hb, hbounds, ?_⟩
    · rw [hgroup]
      exact .refl _
    · intro limit hlimit
      rw [hwindow] at hlimit
      cases hlimit

/-- **Ordered detection completeness.** An ordered rule without suppression answers every group that
holds an ordered detection exactly when, if there is such a group at all, the evaluation raises
nothing and each such group has a block that fits the window. -/
theorem ordered_detection_iff (P : Platform) (rule : SequenceRule) (events : List EventEnvelope)
    (hordered : rule.ordered = true) (hseconds : rule.suppressionSeconds = none)
    (hkey : rule.suppressionKey = []) :
    DetectsAll P rule events ↔
      ((∃ key, Detectable P rule events key) → EvaluationReturns P rule events) ∧
        ∀ key, Detectable P rule events key →
          HasFittingBlock P rule (correlationGroup P rule events key) := by
  by_cases hany : ∃ key, Detectable P rule events key
  swap
  · exact ⟨fun _ => ⟨fun h => absurd h hany, fun key h => absurd ⟨key, h⟩ hany⟩,
      fun _ key h => absurd ⟨key, h⟩ hany⟩
  obtain ⟨key₀, selected, hselected⟩ := hany
  obtain ⟨stage, later, hstages⟩ : ∃ stage later, rule.stages = stage :: later := by
    cases hstages : rule.stages with
    | nil =>
      have hsat := hselected.satisfies
      rw [hstages] at hsat
      cases hsat
      exact absurd rfl hselected.ne_nil
    | cons stage later => exact ⟨stage, later, rfl⟩
  have hone : later = [] → ∀ a, WithinLimit rule.withinSeconds a a := by
    rintro rfl a
    exact withinLimit_self hstages hselected a
  have hreports : EvaluationReports P rule events (evaluateSequenceRule P events rule) :=
    evaluateSequenceRule_reports hstages hordered hseconds hkey hone
  have hdetectable : Detectable P rule events key₀ := ⟨selected, hselected⟩
  cases heval : evaluateSequenceRule P events rule with
  | error exc =>
    rw [heval] at hreports
    constructor
    · intro hall
      obtain ⟨found, hfound, -⟩ := hall key₀ hdetectable
      rw [heval] at hfound
      cases hfound
    · rintro ⟨hreturns, -⟩
      exact absurd (hreturns ⟨key₀, hdetectable⟩) hreports
  | ok found =>
    rw [heval] at hreports
    obtain ⟨hreturns, hfound⟩ := hreports
    constructor
    · intro hall
      refine ⟨fun _ => hreturns, fun key hk => (hfound key).mp ?_⟩
      obtain ⟨found', hfound', hm⟩ := hall key hk
      obtain rfl := Except.ok.inj (heval.symm.trans hfound')
      exact hm
    · rintro ⟨-, hfits⟩ key hk
      exact ⟨found, heval, (hfound key).mpr (hfits key hk)⟩

theorem ordered_detection_iff_sample :
    DetectsAll .plain quickDegradation [runStart, runDegraded] ↔
      ((∃ key, Detectable .plain quickDegradation [runStart, runDegraded] key) →
        EvaluationReturns .plain quickDegradation [runStart, runDegraded]) ∧
      ∀ key, Detectable .plain quickDegradation [runStart, runDegraded] key →
        HasFittingBlock .plain quickDegradation
          (correlationGroup .plain quickDegradation [runStart, runDegraded] key) :=
  ordered_detection_iff .plain quickDegradation [runStart, runDegraded] rfl rfl rfl

/-- The detection is found by itself and lost behind an earlier start: the scan commits to the
decoy, and the window of the only block is missed. -/
theorem decoy_hides_detection :
    evaluateSequenceRule .plain [runStart, runDegraded] quickDegradation
        = .ok [⟨lit "quick", [lit "e2", lit "e3"], [lit "r"], none, lit "medium"⟩] ∧
      ¬ DetectsAll .plain quickDegradation [decoyStart, runStart, runDegraded] := by
  refine ⟨by decide +kernel, fun hall => ?_⟩
  have hdetectable : Detectable .plain quickDegradation [decoyStart, runStart, runDegraded]
      [lit "r"] := by
    refine quickDegradation_selection [decoyStart] ?_ ?_
    · simp only [List.cons_append, List.nil_append, List.forall_mem_cons]
      exact ⟨by decide +kernel, by decide +kernel, by decide +kernel, by simp⟩
    · decide +kernel
  obtain ⟨found, hfound, m, hm, -⟩ := hall _ hdetectable
  have hnone : evaluateSequenceRule .plain [decoyStart, runStart, runDegraded] quickDegradation
      = .ok [] := by decide +kernel
  obtain rfl := Except.ok.inj (hnone.symm.trans hfound)
  cases hm

end ActionLineage
