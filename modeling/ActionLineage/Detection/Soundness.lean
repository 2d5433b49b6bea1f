import ActionLineage.Detection.Completeness
import ActionLineage.Py.Reordering

/-!
# What a match consists of

The events of the matches of one group, one match after another, are a selection of the group that
uses no place twice; for an ordered rule they even stand in the order of the group
(`matchOrdered_sound`). Dropping repeated and suppressed matches keeps that. So every match is an
event for each stage, at positions of its own, and no two matches of a group share an event
(`detection_sound`).

The window is not tested for a single event, so a rule of one stage may report one whatever its
window says (`negative_window_matches`).
-/

namespace ActionLineage

open Py

/-! ## Statement -/

/-- The latest of the events is at most so many seconds after the earliest. -/
def SpansAtMost (limit : Binary64) (events : List EventEnvelope) : Prop :=
  ∃ first last, (occurrences events).min? = some first ∧ (occurrences events).max? = some last ∧
    (secondsBetween first last).le limit = true

/-- What the match reports are the events at these positions of the group, one for each stage. -/
structure SoundMatch (P : Platform) (rule : SequenceRule) (group : List EventEnvelope)
    (m : DetectionMatch) (positions : List (Fin group.length)) : Prop where
  fields : m.ruleName = rule.name ∧ m.ruleId = rule.ruleId ∧ m.severity = rule.severity
  eventIds : m.eventIds = positions.map fun i => (group.get i).eventId.val
  satisfies : List.Forall₂ (Satisfies P) rule.stages (positions.map group.get)
  ordered : rule.ordered = true → positions.Pairwise (· < ·)
  window : ∀ limit, rule.withinSeconds = some limit →
    2 ≤ rule.stages.length ∨ Binary64.le (.finite false ⟨0, by decide⟩) limit = true →
    SpansAtMost limit (positions.map group.get)

/-- In every group, the reported matches are sound and no place is used twice. -/
def DetectionSound (P : Platform) (rule : SequenceRule) (events : List EventEnvelope)
    (found : List DetectionMatch) : Prop :=
  ∀ key, ∃ used : List (List (Fin (correlationGroup P rule events key).length)),
    List.Forall₂ (SoundMatch P rule (correlationGroup P rule events key))
      (found.filter fun m => m.groupKey = key) used ∧ used.flatten.Nodup

variable {P : Platform} {rule : SequenceRule} {events : List EventEnvelope}
  {stage : SequenceStage} {later : List SequenceStage} {withinSeconds : Option Binary64}

/-! ## The matchers -/

/-- One round finds an event for each stage, in order, before the rest. -/
theorem scanStages_sound {matched rest : List EventEnvelope}
    (h : scanStages P events stage later = .ok (some (matched, rest))) :
    List.Forall₂ (Satisfies P) (stage :: later) matched ∧
      ∃ seg, events = seg ++ rest ∧ matched.Sublist seg := by
  induction events generalizing stage later matched with
  | nil => cases h
  | cons event events ih =>
    unfold scanStages at h
    obtain ⟨b, htest, h⟩ := bind_eq_ok.mp h
    cases b with
    | false =>
      obtain ⟨hsat, seg, rfl, hsub⟩ := ih h
      exact ⟨hsat, event :: seg, rfl, hsub.cons event⟩
    | true =>
      cases later with
      | nil =>
        obtain ⟨rfl, rfl⟩ := Prod.mk.inj (Option.some.inj (Except.ok.inj h))
        exact ⟨.cons htest .nil, [event], rfl, List.Sublist.refl _⟩
      | cons next later =>
        obtain ⟨scanned, hscan, h⟩ := bind_eq_ok.mp h
        obtain ⟨⟨tail, left⟩, rfl, hpair⟩ := Option.map_eq_some_iff.mp (Except.ok.inj h)
        obtain ⟨rfl, rfl⟩ := Prod.mk.inj hpair
        obtain ⟨hsat, seg, rfl, hsub⟩ := ih hscan
        exact ⟨.cons htest hsat, event :: seg, rfl, hsub.cons_cons event⟩

/-- The events found round after round stand in the order of the events. -/
theorem matchOrdered_sound {fuel : Nat} {found : List (List EventEnvelope)}
    (h : matchOrdered P stage later withinSeconds fuel events = .ok found) :
    found.flatten.Sublist events ∧ ∀ matched ∈ found,
      List.Forall₂ (Satisfies P) (stage :: later) matched ∧
        withinWindow matched withinSeconds = true := by
  induction fuel generalizing events found with
  | zero =>
    obtain rfl := Except.ok.inj h
    exact ⟨List.nil_sublist _, by simp⟩
  | succ fuel ih =>
    rw [matchOrdered] at h
    obtain ⟨scanned, hscan, h⟩ := bind_eq_ok.mp h
    cases scanned with
    | none =>
      obtain rfl := Except.ok.inj h
      exact ⟨List.nil_sublist _, by simp⟩
    | some scanned =>
      obtain ⟨matched, rest⟩ := scanned
      obtain ⟨found', hfound, h⟩ := bind_eq_ok.mp h
      obtain rfl := Except.ok.inj h
      obtain ⟨hsat, seg, rfl, hsub⟩ := scanStages_sound hscan
      obtain ⟨hrest, hall⟩ := ih hfound
      split
      · rename_i hwindow
        refine ⟨?_, ?_⟩
        · rw [List.flatten_cons]
          exact hsub.append hrest
        · intro m hm
          rcases List.mem_cons.mp hm with rfl | hm
          · exact ⟨hsat, hwindow⟩
          · exact hall m hm
      · exact ⟨hrest.trans (List.sublist_append_right seg rest), hall⟩

/-- What taking the first event that matches does: the events are tested up to the one that
matches or raises. -/
def TakesFirst (P : Platform) (stage : SequenceStage) (events : List EventEnvelope) :
    Except PyError (Option (EventEnvelope × List EventEnvelope)) → Prop
  | .error _ => ∃ before event after, events = before ++ event :: after ∧
      TestRaises P stage event ∧ ∀ e ∈ before, eventMatchesStage P e stage = .ok false
  | .ok none => ∀ e ∈ events, eventMatchesStage P e stage = .ok false
  | .ok (some (event, rest)) => ∃ before after, events = before ++ event :: after ∧
      rest = before ++ after ∧ Satisfies P stage event ∧
        ∀ e ∈ before, eventMatchesStage P e stage = .ok false

theorem takeFirst_takes (events : List EventEnvelope) :
    TakesFirst P stage events (takeFirst P stage events) := by
  induction events with
  | nil => exact fun e he => absurd he List.not_mem_nil
  | cons e events ih =>
    unfold takeFirst
    cases htest : eventMatchesStage P e stage with
    | error exc => exact ⟨[], e, events, rfl, ⟨exc, htest⟩, fun x hx => absurd hx List.not_mem_nil⟩
    | ok b =>
      cases b with
      | true => exact ⟨[], events, rfl, rfl, htest, fun x hx => absurd hx List.not_mem_nil⟩
      | false =>
        -- the event stays before whatever is found behind it
        have hskip : ∀ {before : List EventEnvelope},
            (∀ x ∈ before, eventMatchesStage P x stage = .ok false) →
              ∀ x ∈ e :: before, eventMatchesStage P x stage = .ok false := by
          intro before hbefore x hx
          rcases List.mem_cons.mp hx with rfl | hx
          · exact htest
          · exact hbefore x hx
        cases hr : takeFirst P stage events with
        | error exc =>
          rw [hr] at ih
          obtain ⟨before, event, after, rfl, hraise, hbefore⟩ := ih
          exact ⟨e :: before, event, after, rfl, hraise, hskip hbefore⟩
        | ok taken =>
          rw [hr] at ih
          cases taken with
          | none => exact hskip ih
          | some taken =>
            obtain ⟨before, after, rfl, hrest, hsat, hbefore⟩ := ih
            exact ⟨e :: before, after, rfl, by rw [hrest]; rfl, hsat, hskip hbefore⟩

theorem takeStages_sound {stages : List SequenceStage} {matched : List EventEnvelope}
    (h : takeStages P stages events = .ok (some matched)) :
    List.Forall₂ (Satisfies P) stages matched ∧ matched.Subperm events := by
  induction stages generalizing events matched with
  | nil =>
    obtain rfl := Option.some.inj (Except.ok.inj h)
    exact ⟨.nil, List.nil_subperm⟩
  | cons stage stages ih =>
    rw [takeStages] at h
    obtain ⟨taken, htaken, h⟩ := bind_eq_ok.mp h
    cases taken with
    | none => cases h
    | some taken =>
      obtain ⟨event, rest⟩ := taken
      obtain ⟨matched', hmatched, h⟩ := bind_eq_ok.mp h
      obtain ⟨tail, rfl, rfl⟩ := Option.map_eq_some_iff.mp (Except.ok.inj h)
      have htakes := @takeFirst_takes P stage events
      rw [htaken] at htakes
      obtain ⟨before, after, rfl, rfl, hsat, -⟩ := htakes
      obtain ⟨hall, hsub⟩ := ih hmatched
      refine ⟨.cons hsat hall, ?_⟩
      exact ((List.subperm_cons event).mpr hsub).trans List.perm_middle.symm.subperm

theorem matchUnordered_sound {stages : List SequenceStage} {found : List (List EventEnvelope)}
    (h : matchUnordered P stages withinSeconds events = .ok found) :
    found.flatten.Subperm events ∧ ∀ matched ∈ found,
      List.Forall₂ (Satisfies P) stages matched ∧ withinWindow matched withinSeconds = true := by
  unfold matchUnordered at h
  obtain ⟨taken, htaken, h⟩ := bind_eq_ok.mp h
  cases taken with
  | none =>
    obtain rfl := Except.ok.inj h
    exact ⟨List.nil_subperm, by simp⟩
  | some matched =>
    obtain rfl := Except.ok.inj h
    obtain ⟨hsat, hsub⟩ := takeStages_sound htaken
    split
    · rename_i hwindow
      refine ⟨by simpa using hsub, ?_⟩
      simpa using ⟨hsat, hwindow⟩
    · exact ⟨List.nil_subperm, by simp⟩

/-- What is emitted was found. -/
theorem suppressAndDedupe_sublist {key : List Str} {found emitted : List (List EventEnvelope)}
    {seen : List (List Str)} {last : List (List Str × DateTime)}
    (h : suppressAndDedupe P rule key found seen last = .ok emitted) : emitted.Sublist found := by
  induction found generalizing seen last emitted with
  | nil =>
    obtain rfl := Except.ok.inj h
    exact List.Sublist.refl _
  | cons matched found ih =>
    rw [suppressAndDedupe] at h
    split at h
    · exact (ih h).cons matched
    · obtain ⟨suppressionKey, -, h⟩ := bind_eq_ok.mp h
      split at h
      · cases h
      · split at h
        · exact (ih h).cons matched
        · obtain ⟨rest, hrest, h⟩ := bind_eq_ok.mp h
          obtain rfl := Except.ok.inj h
          exact (ih hrest).cons_cons matched

/-! ## The window -/

/-- Of two events or more the window is tested; one event spans no time. -/
theorem spansAtMost_of_withinWindow {matched : List EventEnvelope} {limit : Binary64}
    (hne : matched ≠ []) (h : withinWindow matched (some limit) = true)
    (hlimit : 2 ≤ matched.length ∨ Binary64.le (.finite false ⟨0, by decide⟩) limit = true) :
    SpansAtMost limit matched := by
  by_cases hlong : 2 ≤ matched.length
  · have hshort : ¬ matched.length < 2 := by omega
    unfold withinWindow at h
    simp only [hshort, decide_false, Bool.false_or] at h
    split at h
    · rename_i first last hfirst hlast
      exact ⟨first, last, hfirst, hlast, h⟩
    · cases h
  · obtain ⟨e, rfl⟩ : ∃ e, matched = [e] := by
      have hpos : 0 < matched.length := List.length_pos_iff.mpr hne
      exact List.length_eq_one_iff.mp (by omega)
    refine ⟨e.occurredAt, e.occurredAt, rfl, rfl, ?_⟩
    rw [secondsBetween_self]
    exact hlimit.resolve_left hlong

/-! ## One group -/

/-- Selections that use no place twice are sound matches at positions of their own. -/
theorem exists_sound_positions (hstages : rule.stages = stage :: later) {key : List Str}
    {selections : List (List EventEnvelope)} (hsub : selections.flatten.Subperm events)
    (hordered : rule.ordered = true → selections.flatten.Sublist events)
    (hall : ∀ matched ∈ selections, List.Forall₂ (Satisfies P) (stage :: later) matched ∧
      withinWindow matched rule.withinSeconds = true) :
    ∃ used : List (List (Fin events.length)),
      List.Forall₂ (SoundMatch P rule events)
        (selections.map fun matched =>
          { ruleName := rule.name, eventIds := matched.map fun e => e.eventId.val, groupKey := key
            ruleId := rule.ruleId, severity := rule.severity }) used ∧ used.flatten.Nodup := by
  obtain ⟨positions, hnodup, hincreasing, hget⟩ : ∃ positions : List (Fin events.length),
      positions.Nodup ∧ (rule.ordered = true → positions.Pairwise (· < ·)) ∧
        positions.map events.get = selections.flatten := by
    by_cases h : rule.ordered = true
    · obtain ⟨positions, hsorted, hget⟩ := exists_positions_of_sublist (hordered h)
      exact ⟨positions, hsorted.imp ne_of_lt, fun _ => hsorted, hget⟩
    · obtain ⟨positions, hnodup, hget⟩ := exists_positions_of_subperm hsub
      exact ⟨positions, hnodup, fun h' => absurd h' h, hget⟩
  obtain ⟨used, rfl, rfl⟩ := exists_flatten_of_map hget
  refine ⟨used, ?_, hnodup⟩
  rw [List.map_map, List.forall₂_map_left_iff, List.forall₂_same]
  intro ps hps
  obtain ⟨hsat, hwindow⟩ := hall _ (List.mem_map_of_mem hps)
  refine ⟨⟨rfl, rfl, rfl⟩, by simp, by rwa [hstages], fun h => ?_, fun limit hlimit hlong => ?_⟩
  · exact (List.pairwise_flatten.mp (hincreasing h)).1 ps hps
  · rw [hlimit] at hwindow
    have hlength := hsat.length_eq
    refine spansAtMost_of_withinWindow ?_ hwindow ?_
    · intro hnil
      rw [hnil] at hsat
      cases hsat
    · rwa [hstages, hlength] at hlong

/-- The evaluation of one group: what the matcher finds is thinned out and reported. -/
theorem evaluateGroup_eq_ok {key : List Str} {group : List EventEnvelope}
    {found : List DetectionMatch} (h : evaluateGroup P rule stage later (key, group) = .ok found) :
    ∃ selections emitted : List (List EventEnvelope),
      (if rule.ordered then
          matchOrdered P stage later rule.withinSeconds (sortEvents group).length (sortEvents group)
        else matchUnordered P (stage :: later) rule.withinSeconds (sortEvents group))
        = .ok selections ∧
      suppressAndDedupe P rule key selections [] [] = .ok emitted ∧
      found = emitted.map fun events =>
        { ruleName := rule.name, eventIds := events.map fun e => e.eventId.val, groupKey := key
          ruleId := rule.ruleId, severity := rule.severity } := by
  unfold evaluateGroup at h
  by_cases hordered : rule.ordered = true
  · simp only [hordered, if_true] at h ⊢
    obtain ⟨selections, hselections, h⟩ := bind_eq_ok.mp h
    obtain ⟨emitted, hemitted, h⟩ := bind_eq_ok.mp h
    exact ⟨selections, emitted, hselections, hemitted, (Except.ok.inj h).symm⟩
  · simp only [hordered] at h ⊢
    obtain ⟨selections, hselections, h⟩ := bind_eq_ok.mp h
    obtain ⟨emitted, hemitted, h⟩ := bind_eq_ok.mp h
    exact ⟨selections, emitted, hselections, hemitted, (Except.ok.inj h).symm⟩

/-- What the evaluation of one group returns. -/
theorem evaluateGroup_sound (hstages : rule.stages = stage :: later) {key : List Str}
    {group : List EventEnvelope} {found : List DetectionMatch}
    (h : evaluateGroup P rule stage later (key, group) = .ok found) :
    (∀ m ∈ found, m.groupKey = key) ∧ ∃ used : List (List (Fin (sortEvents group).length)),
      List.Forall₂ (SoundMatch P rule (sortEvents group)) found used ∧ used.flatten.Nodup := by
  obtain ⟨selections, emitted, hselections, hemitted, rfl⟩ := evaluateGroup_eq_ok h
  have hkept := suppressAndDedupe_sublist hemitted
  refine ⟨fun m hm => ?_, ?_⟩
  · obtain ⟨_, -, rfl⟩ := List.mem_map.mp hm
    rfl
  · split at hselections
    · obtain ⟨hsub, hall⟩ := matchOrdered_sound hselections
      have hsub' := hkept.flatten.trans hsub
      exact exists_sound_positions hstages hsub'.subperm (fun _ => hsub')
        fun matched hm => hall matched (hkept.subset hm)
    · rename_i hunordered
      obtain ⟨hsub, hall⟩ := matchUnordered_sound hselections
      exact exists_sound_positions hstages (hkept.flatten.subperm.trans hsub)
        (fun h => absurd h hunordered) fun matched hm => hall matched (hkept.subset hm)

/-! ## All groups -/

theorem detection_sound {found : List DetectionMatch}
    (h : evaluateSequenceRule P events rule = .ok found) : DetectionSound P rule events found := by
  intro key
  unfold evaluateSequenceRule at h
  cases hstages : rule.stages with
  | nil =>
    rw [hstages] at h
    obtain rfl := Except.ok.inj h
    exact ⟨[], .nil, .nil⟩
  | cons stage later =>
    rw [hstages] at h
    obtain ⟨grouped, hgrouped, h⟩ := bind_eq_ok.mp h
    obtain ⟨founds, hfounds, h⟩ := bind_eq_ok.mp h
    obtain rfl := Except.ok.inj h
    obtain ⟨-, hgroups⟩ := groupEvents_eq_ok hgrouped
    rcases filter_flatten_cases (mapM_eq_ok.mp hfounds) hgroups.nodup
      (fun _ _ hms => (evaluateGroup_sound hstages hms).1) key with ⟨-, hnone⟩ | ⟨⟨_, group⟩, hmem, hms, rfl⟩
    · rw [hnone]
      exact ⟨[], .nil, .nil⟩
    · obtain ⟨-, hsorted, -⟩ := (mem_groupEvents hgrouped).mp hmem
      obtain ⟨-, used, hused, hnodup⟩ := evaluateGroup_sound hstages hms
      rw [← hsorted]
      exact ⟨used, hused, hnodup⟩

theorem detection_sound_sample :
    DetectionSound .plain quickDegradation [runStart, runDegraded]
      [⟨lit "quick", [lit "e2", lit "e3"], [lit "r"], none, lit "medium"⟩] :=
  detection_sound (by decide +kernel)

/-- A degradation within a negative time. -/
def backwardsDegradation : SequenceRule where
  name := lit "backwards"
  stages := [{ eventType := lit "recorder.degraded", «where» := [] }]
  withinSeconds := some (.ofRatio true 1 1)

/-- The window of a single event is not tested: no time is no time before itself. -/
theorem negative_window_matches :
    evaluateSequenceRule .plain [runDegraded] backwardsDegradation
        = .ok [⟨lit "backwards", [lit "e3"], [lit "r"], none, lit "medium"⟩] ∧
      ¬ SpansAtMost (.ofRatio true 1 1) [runDegraded] := by
  refine ⟨by decide +kernel, ?_⟩
  rintro ⟨first, last, hfirst, hlast, hle⟩
  obtain rfl := Option.some.inj hfirst
  obtain rfl := Option.some.inj hlast
  exact absurd hle (by decide +kernel)

end ActionLineage
