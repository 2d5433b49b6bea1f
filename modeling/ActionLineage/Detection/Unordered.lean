import ActionLineage.Detection.Soundness
import ActionLineage.FirstFit

/-!
# Completeness of unordered detection

A group holds an unordered detection when its events can be assigned to the stages, each event to
one stage, within the window (`UnorderedSelection`). The matcher tries one assignment only: each
stage takes the first event that satisfies it and that is left. So a group is answered exactly when,
besides, nothing raises and some assignment that fits the window is eager: no stage passes over an
event that it could have (`unordered_detection_iff`). A stage that is easy to satisfy can take the
only event of a later one (`greedy_stage_hides_detection`).
-/

namespace ActionLineage

open Py FirstFit

/-! ## Statement -/

/-- The event at the position of the group satisfies the stage. -/
def SatisfiesAt (P : Platform) (group : List EventEnvelope) (stage : SequenceStage)
    (i : Fin group.length) : Prop :=
  Satisfies P stage (group.get i)

/-- An event of the group for each stage, the instants of them at most the window apart. -/
structure UnorderedSelection (P : Platform) (rule : SequenceRule) (group : List EventEnvelope)
    (positions : List (Fin group.length)) : Prop where
  assigned : Assigned (SatisfiesAt P group) rule.stages positions
  window : ∀ limit, rule.withinSeconds = some limit → positions ≠ [] →
    SpansAtMost limit (positions.map group.get)

/-- The events of the group of the key can be assigned to the stages. -/
def Assignable (P : Platform) (rule : SequenceRule) (events : List EventEnvelope)
    (key : List Str) : Prop :=
  correlationGroup P rule events key ≠ [] ∧
    ∃ positions, UnorderedSelection P rule (correlationGroup P rule events key) positions

/-- Evaluating the rule answers every group whose events can be assigned to the stages. -/
def DetectsAssignable (P : Platform) (rule : SequenceRule) (events : List EventEnvelope) : Prop :=
  ∀ key, Assignable P rule events key →
    ∃ found, evaluateSequenceRule P events rule = .ok found ∧ ∃ m ∈ found, m.groupKey = key

/-- No stage raises on an event that it is tested on. -/
def FirstTestsReturn (P : Platform) (stages : List SequenceStage) (group : List EventEnvelope) :
    Prop :=
  ∀ stage i, Due (SatisfiesAt P group) [] stages stage i → ¬ TestRaises P stage (group.get i)

/-- Every event has a key, and no test that is due in any group raises. -/
def UnorderedReturns (P : Platform) (rule : SequenceRule) (events : List EventEnvelope) : Prop :=
  (∀ e ∈ events, ∃ key, groupKey P rule.groupBy e = .ok key) ∧
    ∀ key, FirstTestsReturn P rule.stages (correlationGroup P rule events key)

variable {P : Platform} {rule : SequenceRule} {events group : List EventEnvelope}
  {stage : SequenceStage} {later stages : List SequenceStage}

/-! ## What the stages take -/

/-- What the stages take of the positions that are not used. -/
def StagesTake (P : Platform) (group : List EventEnvelope) (used : List (Fin group.length))
    (stages : List SequenceStage) : Except PyError (Option (List EventEnvelope)) → Prop
  | .error _ => ∃ s i, Due (SatisfiesAt P group) used stages s i ∧ TestRaises P s (group.get i)
  | .ok taken =>
    (∀ s i, Due (SatisfiesAt P group) used stages s i → ¬ TestRaises P s (group.get i)) ∧
      ∀ matched, taken = some matched ↔
        ∃ positions, Taken (SatisfiesAt P group) used stages positions ∧
          positions.map group.get = matched

/-- A free position is passed over on the way to a later one. -/
theorem free_and_before {used left before after : List (Fin group.length)} {i : Fin group.length}
    (hleft : left.Pairwise (· < ·)) (hfree : ∀ j, j ∈ left ↔ j ∉ used)
    (hsplit : left = before ++ i :: after) : i ∉ used ∧ ∀ j < i, j ∉ used → j ∈ before := by
  refine ⟨(hfree i).mp (by simp [hsplit]), fun j hj hunused => ?_⟩
  have hmem : j ∈ before ++ i :: after := hsplit ▸ (hfree j).mpr hunused
  rw [hsplit] at hleft
  obtain ⟨-, hafter, -⟩ := List.pairwise_append.mp hleft
  rcases List.mem_append.mp hmem with hb | ha
  · exact hb
  · rcases List.mem_cons.mp ha with rfl | ha
    · exact absurd hj (lt_irrefl _)
    · exact absurd hj (lt_asymm ((List.pairwise_cons.mp hafter).1 j ha))

/-- Where every free position below fails the test, all that satisfy the stage are used. -/
theorem used_of_fails {used : List (Fin group.length)} {i : Fin group.length}
    (h : ∀ j < i, j ∉ used → eventMatchesStage P (group.get j) stage = .ok false) :
    ∀ j < i, SatisfiesAt P group stage j → j ∈ used := by
  intro j hj hsat
  by_contra hunused
  exact not_satisfies (h j hj hunused) hsat

/-- Without the position taken, the positions left are those that are not used now. -/
theorem free_without {used left before after : List (Fin group.length)} {i : Fin group.length}
    (hleft : left.Pairwise (· < ·)) (hfree : ∀ j, j ∈ left ↔ j ∉ used)
    (hsplit : left = before ++ i :: after) (j : Fin group.length) :
    j ∈ before ++ after ↔ j ∉ i :: used := by
  rw [hsplit] at hleft
  have hnodup : (i :: (before ++ after)).Nodup :=
    (List.perm_middle.nodup_iff).mp (hleft.imp ne_of_lt)
  have hnew := (List.nodup_cons.mp hnodup).1
  have hsame : j ∈ left ↔ j = i ∨ j ∈ before ++ after := by
    rw [hsplit, List.perm_middle.mem_iff, List.mem_cons]
  rw [List.mem_cons, not_or, ← hfree j, hsame]
  constructor
  · intro hj
    exact ⟨fun heq => hnew (heq ▸ hj), .inr hj⟩
  · rintro ⟨hne, heq | hj⟩
    · exact absurd heq hne
    · exact hj

/-- The induction is on the stages; the positions left are those that are not used, in order. -/
theorem takeStages_take {used left : List (Fin group.length)} (hleft : left.Pairwise (· < ·))
    (hfree : ∀ j, j ∈ left ↔ j ∉ used) :
    StagesTake P group used stages (takeStages P stages (left.map group.get)) := by
  induction stages generalizing used left with
  | nil =>
    refine ⟨fun s i hd => (by cases hd), fun matched => ⟨?_, ?_⟩⟩
    · intro h
      obtain rfl := Option.some.inj h
      exact ⟨[], .nil used, rfl⟩
    · rintro ⟨positions, htaken, rfl⟩
      cases htaken
      rfl
  | cons stage stages ih =>
    have htakes := @takeFirst_takes P stage (left.map group.get)
    unfold takeStages
    cases hfirst : takeFirst P stage (left.map group.get) with
    | error exc =>
      rw [hfirst] at htakes
      obtain ⟨_, _, _, hmap, hraise, hbefore⟩ := htakes
      obtain ⟨before, tail, hsplit, rfl, htail⟩ := List.map_eq_append_iff.mp hmap
      obtain ⟨i, after, rfl, rfl, rfl⟩ := List.map_eq_cons_iff.mp htail
      obtain ⟨hunused, hbelow⟩ := free_and_before hleft hfree hsplit
      have hleast := used_of_fails fun j hj hj' => hbefore _ (List.mem_map_of_mem (hbelow j hj hj'))
      exact ⟨stage, i, .here hunused hleast, hraise⟩
    | ok taken =>
      rw [hfirst] at htakes
      cases taken with
      | none =>
        have hno : ∀ i, i ∉ used → eventMatchesStage P (group.get i) stage = .ok false :=
          fun i hi => htakes _ (List.mem_map_of_mem ((hfree i).mpr hi))
        refine ⟨fun s i hd => ?_, fun matched => ⟨fun h => (by cases h), ?_⟩⟩
        · cases hd with
          | here hi _ => exact not_testRaises (hno i hi)
          | later ha hunused _ _ => exact absurd ha (not_satisfies (hno _ hunused))
        · rintro ⟨_, htaken, -⟩
          cases htaken with
          | cons ha hunused _ _ => exact absurd ha (not_satisfies (hno _ hunused))
      | some taken =>
        obtain ⟨event, rest⟩ := taken
        obtain ⟨_, _, hmap, rfl, hsat, hbefore⟩ := htakes
        obtain ⟨before, tail, hsplit, rfl, htail⟩ := List.map_eq_append_iff.mp hmap
        obtain ⟨i, after, rfl, rfl, rfl⟩ := List.map_eq_cons_iff.mp htail
        obtain ⟨hunused, hbelow⟩ := free_and_before hleft hfree hsplit
        have hfails : ∀ j < i, j ∉ used → eventMatchesStage P (group.get j) stage = .ok false :=
          fun j hj hj' => hbefore _ (List.mem_map_of_mem (hbelow j hj hj'))
        have hleast := used_of_fails hfails
        have hrest := ih
          ((hsplit ▸ hleft).sublist ((List.sublist_cons_self i after).append_left before))
          (free_without hleft hfree hsplit)
        rw [List.map_append] at hrest
        have hsat' : SatisfiesAt P group stage i := hsat
        simp only [bind, Except.bind]
        cases hr : takeStages P stages (before.map group.get ++ after.map group.get) with
        | error exc =>
          rw [hr] at hrest
          obtain ⟨s, j, hdue, hraise⟩ := hrest
          exact ⟨s, j, .later hsat' hunused hleast hdue, hraise⟩
        | ok taken =>
          rw [hr] at hrest
          obtain ⟨hreturn, hmatched⟩ := hrest
          refine ⟨fun s j hd => ?_, fun matched => ⟨fun h => ?_, ?_⟩⟩
          · rcases (due_cons_iff hsat' hunused hleast).mp hd with ⟨rfl, hj, hbelow'⟩ | hd
            · rcases lt_trichotomy j i with hlt | rfl | hlt
              · exact not_testRaises (hfails j hlt hj)
              · exact not_testRaises hsat
              · exact absurd (hbelow' i hlt hsat) hunused
            · exact hreturn s j hd
          · obtain ⟨tail, rfl, rfl⟩ := Option.map_eq_some_iff.mp h
            obtain ⟨positions, htaken, rfl⟩ := (hmatched tail).mp rfl
            exact ⟨i :: positions, .cons hsat' hunused hleast htaken, rfl⟩
          · rintro ⟨_, htaken, rfl⟩
            cases htaken with
            | cons ha hunused' hleast' htaken =>
              obtain rfl := least_unique hsat' hunused hleast ha hunused' hleast'
              exact Option.map_eq_some_iff.mpr ⟨_, (hmatched _).mpr ⟨_, htaken, rfl⟩, rfl⟩

/-! ## The evaluation -/

/-- What the evaluation of one group reports, for an unordered rule. -/
def UnorderedReports (P : Platform) (rule : SequenceRule) (key : List Str)
    (group : List EventEnvelope) : Except PyError (List DetectionMatch) → Prop
  | .error _ => ¬ FirstTestsReturn P rule.stages group
  | .ok found =>
    FirstTestsReturn P rule.stages group ∧
      (found ≠ [] ↔ ∃ positions, Taken (SatisfiesAt P group) [] rule.stages positions ∧
        withinWindow (positions.map group.get) rule.withinSeconds = true) ∧
      ∀ m ∈ found, m.groupKey = key

/-- The matcher tries the events of the group in order. -/
theorem stagesTake_all (P : Platform) (group : List EventEnvelope) (stages : List SequenceStage) :
    StagesTake P group [] stages (takeStages P stages group) := by
  have h := @takeStages_take P group stages [] _
    (List.sortedLT_finRange group.length).pairwise fun j => by simp
  rwa [List.map_get_finRange] at h

/-- What the matcher finds in the group. -/
theorem matchUnordered_finds (P : Platform) (group : List EventEnvelope)
    (stages : List SequenceStage) (withinSeconds : Option Binary64) :
    match matchUnordered P stages withinSeconds group with
    | .error _ => ¬ FirstTestsReturn P stages group
    | .ok found => FirstTestsReturn P stages group ∧
      (found ≠ [] ↔ ∃ positions, Taken (SatisfiesAt P group) [] stages positions ∧
        withinWindow (positions.map group.get) withinSeconds = true) ∧
      ∀ matched ∈ found, matched.length = stages.length := by
  have htake := stagesTake_all P group stages
  unfold matchUnordered
  cases htaken : takeStages P stages group with
  | error exc =>
    rw [htaken] at htake
    obtain ⟨s, i, hdue, hraise⟩ := htake
    exact fun hreturn => hreturn s i hdue hraise
  | ok taken =>
    rw [htaken] at htake
    obtain ⟨hreturn, hmatched⟩ := htake
    cases taken with
    | none =>
      refine ⟨hreturn, ⟨fun h => absurd rfl h, ?_⟩, fun _ h => absurd h List.not_mem_nil⟩
      rintro ⟨positions, hpositions, -⟩
      cases (hmatched _).mpr ⟨positions, hpositions, rfl⟩
    | some matched =>
      obtain ⟨positions, hpositions, rfl⟩ := (hmatched matched).mp rfl
      have hlength : (positions.map group.get).length = stages.length := by
        rw [List.length_map, (taken_iff.mp hpositions).1.satisfies.length_eq]
      refine ⟨hreturn, ?_, ?_⟩
      · constructor
        · intro hne
          refine ⟨positions, hpositions, ?_⟩
          by_contra hno
          exact hne (if_neg hno)
        · rintro ⟨positions', hpositions', hwindow⟩
          obtain rfl := hpositions.unique hpositions'
          simp [hwindow]
      · intro m hm
        split at hm
        · rw [List.mem_singleton.mp hm, hlength]
        · exact absurd hm List.not_mem_nil

theorem evaluateGroup_unordered (hstages : rule.stages = stage :: later)
    (hunordered : rule.ordered = false) (hseconds : rule.suppressionSeconds = none)
    (hkey : rule.suppressionKey = []) (key : List Str) (group : List EventEnvelope) :
    UnorderedReports P rule key (sortEvents group)
      (evaluateGroup P rule stage later (key, group)) := by
  have hfinds := matchUnordered_finds P (sortEvents group) rule.stages rule.withinSeconds
  unfold evaluateGroup
  simp only [hunordered, ← hstages]
  cases hmatch : matchUnordered P rule.stages rule.withinSeconds (sortEvents group) with
  | error exc =>
    rw [hmatch] at hfinds
    exact hfinds
  | ok found =>
    rw [hmatch] at hfinds
    obtain ⟨hreturn, hfound, hlength⟩ := hfinds
    have hne : ∀ m ∈ found, m ≠ [] := by
      intro m hm hnil
      have := hlength m hm
      rw [hnil, hstages] at this
      cases this
    obtain ⟨emitted, hemitted, hnil⟩ := suppressAndDedupe_ok (P := P) hseconds hkey key hne [] []
    simp only [bind, Except.bind, hemitted]
    refine ⟨hreturn, ?_, fun m hm => ?_⟩
    · rw [← hfound, ne_eq, List.map_eq_nil_iff, hnil rfl]
    · obtain ⟨_, -, rfl⟩ := List.mem_map.mp hm
      rfl

/-- What the evaluation of an unordered rule answers. -/
def UnorderedAnswers (P : Platform) (rule : SequenceRule) (events : List EventEnvelope) :
    Except PyError (List DetectionMatch) → Prop
  | .error _ => ¬ UnorderedReturns P rule events
  | .ok found =>
    UnorderedReturns P rule events ∧ ∀ key, correlationGroup P rule events key ≠ [] →
      ((∃ m ∈ found, m.groupKey = key) ↔ ∃ positions,
        Taken (SatisfiesAt P (correlationGroup P rule events key)) [] rule.stages positions ∧
          withinWindow (positions.map (correlationGroup P rule events key).get)
            rule.withinSeconds = true)

theorem sortEvents_eq_nil : sortEvents events = [] ↔ events = [] := by
  have hperm : (sortEvents events).Perm events := List.perm_insertionSort _ events
  constructor
  · intro h
    rw [h] at hperm
    exact hperm.symm.eq_nil
  · rintro rfl
    rfl

theorem evaluateSequenceRule_unordered (hstages : rule.stages = stage :: later)
    (hunordered : rule.ordered = false) (hseconds : rule.suppressionSeconds = none)
    (hkey : rule.suppressionKey = []) :
    UnorderedAnswers P rule events (evaluateSequenceRule P events rule) := by
  have hgroup : ∀ key, UnorderedReports P rule key (correlationGroup P rule events key)
      (evaluateGroup P rule stage later
        (key, events.filter fun e => groupKey P rule.groupBy e = .ok key)) :=
    fun key => evaluateGroup_unordered hstages hunordered hseconds hkey key _
  have hgroups := @evaluateSequenceRule_groups P _ events _ _ hstages
  cases heval : evaluateSequenceRule P events rule with
  | error exc =>
    rw [heval] at hgroups
    rintro ⟨hkeys, htests⟩
    obtain ⟨key, exc', herr⟩ := hgroups hkeys
    have hreports := hgroup key
    rw [herr] at hreports
    exact hreports (htests key)
  | ok found =>
    rw [heval] at hgroups
    obtain ⟨hkeys, hall, hfrom⟩ := hgroups
    refine ⟨⟨hkeys, fun key => ?_⟩, fun key hne => ?_⟩
    · by_cases hempty : correlationGroup P rule events key = []
      · rw [hempty]
        exact fun _ i => i.elim0
      · obtain ⟨ms, hms, -⟩ := hall key (mt sortEvents_eq_nil.mpr hempty)
        have hreports := hgroup key
        rw [hms] at hreports
        exact hreports.1
    · obtain ⟨ms, hms, hsub⟩ := hall key (mt sortEvents_eq_nil.mpr hne)
      have hreports := hgroup key
      rw [hms] at hreports
      obtain ⟨-, hiff, hmskey⟩ := hreports
      rw [← hiff]
      constructor
      · rintro ⟨m, hm, rfl⟩
        obtain ⟨key', ms', hms', hm'⟩ := hfrom m hm
        have hreports' := hgroup key'
        rw [hms'] at hreports'
        have hkey' := hreports'.2.2 m hm'
        rw [hkey', hms'] at hms
        obtain rfl := Except.ok.inj hms
        exact List.ne_nil_of_mem hm'
      · intro hms
        obtain ⟨m, hm⟩ := List.exists_mem_of_ne_nil _ hms
        exact ⟨m, hsub hm, hmskey m hm⟩

/-! ## Completeness -/

/-- The tested window is the window of the selection, unless a single event is out of it. -/
theorem withinWindow_iff_spansAtMost {matched : List EventEnvelope} {withinSeconds : Option Binary64}
    (hne : matched ≠ []) (hlong : ∀ limit, withinSeconds = some limit →
      2 ≤ matched.length ∨ Binary64.le (.finite false ⟨0, by decide⟩) limit = true) :
    withinWindow matched withinSeconds = true ↔
      ∀ limit, withinSeconds = some limit → SpansAtMost limit matched := by
  constructor
  · rintro h limit rfl
    exact spansAtMost_of_withinWindow hne h (hlong limit rfl)
  · intro h
    cases withinSeconds with
    | none => rfl
    | some limit =>
      obtain ⟨first, last, hfirst, hlast, hle⟩ := h limit rfl
      simp [withinWindow, hfirst, hlast, hle]

/-- A selection of one event shows that the window admits a single instant. -/
theorem two_le_or_admits {positions : List (Fin group.length)}
    (h : UnorderedSelection P rule group positions) {limit : Binary64}
    (hlimit : rule.withinSeconds = some limit) (hne : rule.stages ≠ []) :
    2 ≤ rule.stages.length ∨ Binary64.le (.finite false ⟨0, by decide⟩) limit = true := by
  have hlength := h.assigned.satisfies.length_eq
  by_cases hlong : 2 ≤ rule.stages.length
  · exact .inl hlong
  · have hpos : 0 < rule.stages.length := List.length_pos_iff.mpr hne
    obtain ⟨i, rfl⟩ : ∃ i, positions = [i] := List.length_eq_one_iff.mp (by omega)
    obtain ⟨first, last, hfirst, hlast, hle⟩ := h.window limit hlimit (by simp)
    obtain rfl : (group.get i).occurredAt = first := Option.some.inj hfirst
    obtain rfl : (group.get i).occurredAt = last := Option.some.inj hlast
    rw [secondsBetween_self] at hle
    exact .inr hle

/-- In a group with a selection, what the stages take fits the window if it is a selection. -/
theorem taken_window_iff (hne : rule.stages ≠ []) {positions : List (Fin group.length)}
    (h : UnorderedSelection P rule group positions) :
    (∃ ps, Taken (SatisfiesAt P group) [] rule.stages ps ∧
        withinWindow (ps.map group.get) rule.withinSeconds = true) ↔
      ∃ ps, UnorderedSelection P rule group ps ∧ Eager (SatisfiesAt P group) rule.stages ps := by
  refine exists_congr fun ps => ?_
  rw [taken_iff, and_assoc]
  have hwindow (hassigned : Assigned (SatisfiesAt P group) rule.stages ps) :
      withinWindow (ps.map group.get) rule.withinSeconds = true ↔
        ∀ limit, rule.withinSeconds = some limit → SpansAtMost limit (ps.map group.get) := by
    have hlength := hassigned.satisfies.length_eq
    refine withinWindow_iff_spansAtMost (fun hnil => hne ?_) fun limit hlimit => ?_
    · rw [List.map_eq_nil_iff.mp hnil] at hlength
      exact List.length_eq_zero_iff.mp hlength
    · rw [List.length_map, ← hlength]
      exact two_le_or_admits h hlimit hne
  constructor
  · rintro ⟨hassigned, heager, hfits⟩
    exact ⟨⟨hassigned, fun limit hlimit _ => (hwindow hassigned).mp hfits limit hlimit⟩, heager⟩
  · rintro ⟨⟨hassigned, hfits⟩, heager⟩
    refine ⟨hassigned, heager, (hwindow hassigned).mpr fun limit hlimit => hfits limit hlimit ?_⟩
    rintro rfl
    exact hne (List.length_eq_zero_iff.mp hassigned.satisfies.length_eq)

/-- **Unordered detection completeness.** An unordered rule without suppression answers every group
whose events can be assigned to the stages exactly when, if there is such a group at all, the rule
has stages and the evaluation raises nothing, and each such group has an eager assignment. -/
theorem unordered_detection_iff (P : Platform) (rule : SequenceRule) (events : List EventEnvelope)
    (hunordered : rule.ordered = false) (hseconds : rule.suppressionSeconds = none)
    (hkey : rule.suppressionKey = []) :
    DetectsAssignable P rule events ↔
      ((∃ key, Assignable P rule events key) →
        rule.stages ≠ [] ∧ UnorderedReturns P rule events) ∧
      ∀ key, Assignable P rule events key → ∃ positions,
        UnorderedSelection P rule (correlationGroup P rule events key) positions ∧
          Eager (SatisfiesAt P (correlationGroup P rule events key)) rule.stages positions := by
  by_cases hany : ∃ key, Assignable P rule events key
  swap
  · exact ⟨fun _ => ⟨fun h => absurd h hany, fun key h => absurd ⟨key, h⟩ hany⟩,
      fun _ key h => absurd ⟨key, h⟩ hany⟩
  obtain ⟨key₀, hkey₀⟩ := hany
  cases hstages : rule.stages with
  | nil =>
    constructor
    · intro hall
      obtain ⟨found, hfound, m, hm, -⟩ := hall key₀ hkey₀
      rw [evaluateSequenceRule, hstages] at hfound
      obtain rfl := Except.ok.inj hfound
      exact absurd hm List.not_mem_nil
    · rintro ⟨hreturns, -⟩
      exact absurd rfl (hreturns ⟨key₀, hkey₀⟩).1
  | cons stage later =>
    have hne : rule.stages ≠ [] := by simp [hstages]
    have hanswers : UnorderedAnswers P rule events (evaluateSequenceRule P events rule) :=
      evaluateSequenceRule_unordered hstages hunordered hseconds hkey
    rw [← hstages]
    cases heval : evaluateSequenceRule P events rule with
    | error exc =>
      rw [heval] at hanswers
      constructor
      · intro hall
        obtain ⟨found, hfound, -⟩ := hall key₀ hkey₀
        rw [heval] at hfound
        cases hfound
      · rintro ⟨hreturns, -⟩
        exact absurd (hreturns ⟨key₀, hkey₀⟩).2 hanswers
    | ok found =>
      rw [heval] at hanswers
      obtain ⟨hreturns, hanswers⟩ := hanswers
      constructor
      · intro hall
        refine ⟨fun _ => ⟨hne, hreturns⟩, fun key hk => ?_⟩
        obtain ⟨found', hfound', hm⟩ := hall key hk
        obtain rfl := Except.ok.inj (heval.symm.trans hfound')
        obtain ⟨hgroup, positions, hselection⟩ := hk
        exact (taken_window_iff hne hselection).mp ((hanswers key hgroup).mp hm)
      · rintro ⟨-, heager⟩ key hk
        obtain ⟨hgroup, positions, hselection⟩ := hk
        have htaken := (taken_window_iff hne hselection).mpr (heager key ⟨hgroup, _, hselection⟩)
        exact ⟨found, heval, (hanswers key hgroup).mpr htaken⟩

/-- Another degradation, after the first one. -/
def lateDegraded : EventEnvelope :=
  runEvent (sampleText "e4") (sampleText "recorder.degraded") degraded_documented 3 ⟨50, by decide⟩

def anyDegradation : SequenceStage :=
  { eventType := lit "recorder.degraded", «where» := [] }

def firstDegradation : SequenceStage :=
  { anyDegradation with «where» := [(lit "event_id", .str (lit "e3"))] }

/-- Two degradations of a run in any order, one of them `e3`. -/
def twoDegradations : SequenceRule where
  name := lit "twice"
  stages := [anyDegradation, firstDegradation]
  ordered := false

theorem unordered_detection_iff_sample :
    DetectsAssignable .plain twoDegradations [runDegraded, lateDegraded] ↔
      ((∃ key, Assignable .plain twoDegradations [runDegraded, lateDegraded] key) →
        twoDegradations.stages ≠ [] ∧
          UnorderedReturns .plain twoDegradations [runDegraded, lateDegraded]) ∧
      ∀ key, Assignable .plain twoDegradations [runDegraded, lateDegraded] key → ∃ positions,
        UnorderedSelection .plain twoDegradations
          (correlationGroup .plain twoDegradations [runDegraded, lateDegraded] key) positions ∧
        Eager (SatisfiesAt .plain
            (correlationGroup .plain twoDegradations [runDegraded, lateDegraded] key))
          twoDegradations.stages positions :=
  unordered_detection_iff .plain twoDegradations [runDegraded, lateDegraded] rfl rfl rfl

/-- With the stages the other way round the two degradations are found. In the order of the rule
the stage that any of them satisfies takes the only one that the other stage accepts. -/
theorem greedy_stage_hides_detection :
    evaluateSequenceRule .plain [runDegraded, lateDegraded]
        { twoDegradations with stages := [firstDegradation, anyDegradation] }
        = .ok [⟨lit "twice", [lit "e3", lit "e4"], [lit "r"], none, lit "medium"⟩] ∧
      ¬ DetectsAssignable .plain twoDegradations [runDegraded, lateDegraded] := by
  refine ⟨by decide +kernel, fun hall => ?_⟩
  have hgroup : correlationGroup .plain twoDegradations [runDegraded, lateDegraded] [lit "r"]
      = [runDegraded, lateDegraded] := by
    refine correlationGroup_of_sorted ?_ (by decide +kernel)
    simp only [List.forall_mem_cons]
    exact ⟨by decide +kernel, by decide +kernel, by simp⟩
  have hassignable : Assignable .plain twoDegradations [runDegraded, lateDegraded] [lit "r"] := by
    rw [Assignable, hgroup]
    refine ⟨by simp, [1, 0], ⟨by decide, .cons ?_ (.cons ?_ .nil)⟩, by simp [twoDegradations]⟩
    · change eventMatchesStage _ _ _ = _
      decide +kernel
    · change eventMatchesStage _ _ _ = _
      decide +kernel
  obtain ⟨found, hfound, m, hm, -⟩ := hall _ hassignable
  have hnone : evaluateSequenceRule .plain [runDegraded, lateDegraded] twoDegradations = .ok [] := by
    decide +kernel
  obtain rfl := Except.ok.inj (hnone.symm.trans hfound)
  cases hm

end ActionLineage
