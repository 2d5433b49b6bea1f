import ActionLineage.Detection.Soundness
import ActionLineage.Py.ElapsedTime
import ActionLineage.Throttle

/-!
# Suppression

The candidates of a group start one after the other, and `_suppress_and_dedupe` throttles them by
suppression key (`suppressAndDedupe_eq_throttle`). For events with ids of their own no candidate is
a repetition, so what is dropped is dropped by suppression alone (`suppression_law`).
-/

namespace ActionLineage

open Py Throttle

/-! ## Statement -/

/-- The instant at which a match starts. -/
def StartsAt (matched : List EventEnvelope) (start : DateTime) : Prop :=
  (occurrences matched).min? = some start

/-- Emitted matches of one key: the second starts after the first and not within the limit, that is
more than the limit later. No time is more than NaN seconds. -/
def StartsApart (limit : Binary64) (a b : List EventEnvelope) : Prop :=
  ∃ s t, StartsAt a s ∧ StartsAt b t ∧ s ≤ t ∧ (secondsBetween s t).le limit = false ∧
    (limit ≠ .nan → limit.lt (secondsBetween s t) = true)

/-- The second match starts at most so many seconds after the first. -/
def StartsWithin (limit : Binary64) (a b : List EventEnvelope) : Prop :=
  ∃ s t, StartsAt a s ∧ StartsAt b t ∧ s ≤ t ∧ (secondsBetween s t).le limit = true

/-- The candidates of a group: what the matcher of the rule finds in it. -/
def candidateMatches (P : Platform) (rule : SequenceRule) (group : List EventEnvelope) :
    Except PyError (List (List EventEnvelope)) :=
  match rule.stages with
  | [] => .ok []
  | stage :: later =>
    if rule.ordered then matchOrdered P stage later rule.withinSeconds group.length group
    else matchUnordered P (stage :: later) rule.withinSeconds group

/-- What is reported of a matched sequence. -/
def reportedMatch (rule : SequenceRule) (key : List Str) (matched : List EventEnvelope) :
    DetectionMatch :=
  { ruleName := rule.name, eventIds := matched.map fun e => e.eventId.val, groupKey := key
    ruleId := rule.ruleId, severity := rule.severity }

/-- Of the candidates of a group, the emitted ones of one suppression key are apart, and a candidate
that is dropped follows closely on an emitted one of its key. -/
structure Suppresses (P : Platform) (rule : SequenceRule) (key : List Str) (limit : Binary64)
    (candidates emitted : List (List EventEnvelope)) : Prop where
  sublist : emitted.Sublist candidates
  apart : emitted.Pairwise fun a b =>
    suppressionKey P rule key a = suppressionKey P rule key b → StartsApart limit a b
  dropped : ∀ b ∈ candidates, b ∉ emitted → ∃ a ∈ emitted, [a, b].Sublist candidates ∧
    suppressionKey P rule key a = suppressionKey P rule key b ∧ StartsWithin limit a b

variable {P : Platform} {rule : SequenceRule} {events : List EventEnvelope} {key : List Str}
  {limit : Binary64} {found emitted : List (List EventEnvelope)} {seen : List (List Str)}
  {last : List (List Str × DateTime)} {matched : List EventEnvelope}

/-! ## Being suppressed -/

theorem secondsBetween_mono {s t t' : DateTime} (hst : s ≤ t) (htt' : t ≤ t') :
    (secondsBetween s t).le (secondsBetween s t') = true := by
  have hs := DateTime.toMicros_le hst
  have ht := DateTime.toMicros_le htt'
  unfold secondsBetween
  exact totalSeconds_mono (by omega) (by omega)

/-- A start at most so many seconds after another. -/
def soonAfter (limit : Binary64) (s t : DateTime) : Bool := (secondsBetween s t).le limit

/-- What is not at most a number of seconds is more. -/
theorem lt_secondsBetween {s t : DateTime} (hnan : limit ≠ .nan)
    (h : soonAfter limit s t = false) : limit.lt (secondsBetween s t) = true :=
  Binary64.lt_of_not_le hnan (totalSeconds_ne_nan _) h

theorem leaving_soonAfter (limit : Binary64) : Leaving (soonAfter limit) := by
  intro t s s' hts hss' hsoon
  exact Binary64.le_trans (secondsBetween_mono hts hss') hsoon

theorem suppressed_eq (hlimit : rule.suppressionSeconds = some limit) (last : Option DateTime)
    (first : DateTime) :
    suppressed rule last first = last.any fun t => soonAfter limit t first := by
  unfold suppressed
  rw [hlimit]
  cases last with
  | none => rw [Option.any_none]
  | some t => rw [Option.any_some, soonAfter]

/-! ## The candidates are throttled -/

/-- The suppression key of a match, where it has one. -/
def keyFor (P : Platform) (rule : SequenceRule) (key : List Str) (matched : List EventEnvelope) :
    List Str :=
  (suppressionKey P rule key matched).toOption.getD []

def startFor (matched : List EventEnvelope) : DateTime :=
  (occurrences matched).min?.getD sampleTime

theorem keyFor_eq {k : List Str} (h : suppressionKey P rule key matched = .ok k) :
    keyFor P rule key matched = k := by
  rw [keyFor, h]
  rfl

theorem startFor_eq {start : DateTime} (h : StartsAt matched start) : startFor matched = start := by
  rw [startFor, h]
  rfl

/-- Candidates with event ids of their own are throttled by their keys. -/
theorem suppressAndDedupe_eq_throttle (hlimit : rule.suppressionSeconds = some limit)
    (hids : (found.map fun m => m.map fun e => e.eventId.val).Nodup)
    (hseen : ∀ m ∈ found, (m.map fun e => e.eventId.val) ∉ seen)
    (h : suppressAndDedupe P rule key found seen last = .ok emitted) :
    emitted = throttle (keyFor P rule key) startFor (soonAfter limit) last found ∧
      ∀ m ∈ found, (∃ k, suppressionKey P rule key m = .ok k) ∧ ∃ start, StartsAt m start := by
  induction found generalizing seen last emitted with
  | nil =>
    obtain rfl := Except.ok.inj h
    exact ⟨rfl, fun m hm => by cases hm⟩
  | cons matched found ih =>
    obtain ⟨hnew, hids⟩ := List.nodup_cons.mp hids
    have hunseen : seen.contains (matched.map fun e => e.eventId.val) = false := by
      simpa using hseen matched List.mem_cons_self
    have hrest : ∀ m ∈ found,
        (m.map fun e => e.eventId.val) ∉ (matched.map fun e => e.eventId.val) :: seen := by
      intro m hm hmem
      rcases List.mem_cons.mp hmem with heq | hmem
      · exact hnew (List.mem_map.mpr ⟨m, hm, heq⟩)
      · exact hseen m (List.mem_cons_of_mem _ hm) hmem
    unfold suppressAndDedupe at h
    simp only [hunseen, Bool.and_false, Bool.false_eq_true, if_false] at h
    obtain ⟨k, hkey, h⟩ := bind_eq_ok.mp h
    cases hfirst : (occurrences matched).min? with
    | none =>
      rw [hfirst] at h
      cases h
    | some first =>
      rw [hfirst] at h
      dsimp only at h
      rw [suppressed_eq hlimit] at h
      rw [throttle, keyFor_eq hkey, startFor_eq hfirst]
      split at h
      · rename_i hsoon
        obtain ⟨heq, hall⟩ := ih hids hrest h
        rw [if_pos hsoon]
        exact ⟨heq, List.forall_mem_cons.mpr ⟨⟨⟨k, hkey⟩, first, hfirst⟩, hall⟩⟩
      · rename_i hkept
        obtain ⟨tail, htail, h⟩ := bind_eq_ok.mp h
        obtain rfl := Except.ok.inj h
        obtain ⟨heq, hall⟩ := ih hids hrest htail
        rw [if_neg hkept, heq]
        exact ⟨rfl, List.forall_mem_cons.mpr ⟨⟨⟨k, hkey⟩, first, hfirst⟩, hall⟩⟩

/-! ## The candidates of a group -/

theorem matchUnordered_length {stages : List SequenceStage} {withinSeconds : Option Binary64}
    (h : matchUnordered P stages withinSeconds events = .ok found) : found.length ≤ 1 := by
  unfold matchUnordered at h
  obtain ⟨taken, -, h⟩ := bind_eq_ok.mp h
  split at h
  · obtain rfl := Except.ok.inj h
    exact Nat.zero_le 1
  · obtain rfl := Except.ok.inj h
    split
    · exact le_refl 1
    · exact Nat.zero_le 1

theorem exists_startFor (hne : matched ≠ []) :
    ∃ e ∈ matched, startFor matched = e.occurredAt := by
  have hsome : (occurrences matched).min?.isSome :=
    List.isSome_min?_of_ne_nil (by simpa [occurrences] using hne)
  obtain ⟨start, hstart⟩ := Option.isSome_iff_exists.mp hsome
  rw [startFor_eq hstart]
  obtain ⟨e, he, heq⟩ := List.mem_map.mp (List.min?_eq_some_iff.mp hstart).1
  exact ⟨e, he, heq.symm⟩

/-- What the rest of the argument needs of the candidates: they are parts of the group, and each
starts no earlier than the ones before it. -/
theorem candidateMatches_sound {group : List EventEnvelope} (horder : OccurredInOrder group)
    (h : candidateMatches P rule group = .ok found) :
    found.flatten.Subperm group ∧ (∀ m ∈ found, m ≠ []) ∧
      found.Pairwise fun a b => startFor a ≤ startFor b := by
  unfold candidateMatches at h
  split at h
  · obtain rfl := Except.ok.inj h
    exact ⟨List.nil_subperm, by simp, .nil⟩
  · have hne : ∀ {stage : SequenceStage} {later : List SequenceStage} {m : List EventEnvelope},
        List.Forall₂ (Satisfies P) (stage :: later) m → m ≠ [] := by
      rintro _ _ _ hsat rfl
      cases hsat
    split at h
    · obtain ⟨hsub, hall⟩ := matchOrdered_sound h
      have hnonempty : ∀ m ∈ found, m ≠ [] := fun m hm => hne (hall m hm).1
      refine ⟨hsub.subperm, hnonempty, ?_⟩
      have hflatten : OccurredInOrder found.flatten := List.Pairwise.sublist hsub horder
      refine (List.pairwise_flatten.mp hflatten).2.imp_of_mem fun {a b} ha hb hab => ?_
      obtain ⟨e, he, hea⟩ := exists_startFor (hnonempty a ha)
      obtain ⟨f, hf, hfb⟩ := exists_startFor (hnonempty b hb)
      rw [hea, hfb]
      exact hab e he f hf
    · obtain ⟨hsub, hall⟩ := matchUnordered_sound h
      refine ⟨hsub, fun m hm => hne (hall m hm).1, ?_⟩
      have hlength := matchUnordered_length h
      match found, hlength with
      | [], _ => exact .nil
      | [m], _ => exact List.pairwise_singleton _ _

/-- Parts of a group of distinct ids have distinct lists of ids. -/
theorem eventIds_nodup {group : List EventEnvelope}
    (hids : (group.map fun e => e.eventId.val).Nodup) (hsub : found.flatten.Subperm group)
    (hne : ∀ m ∈ found, m ≠ []) : (found.map fun m => m.map fun e => e.eventId.val).Nodup := by
  have hflatten : (found.flatten.map fun e => e.eventId.val).Nodup := by
    obtain ⟨kept, hperm, hkept⟩ := hsub
    exact (hperm.map _).nodup_iff.mp (hids.sublist (hkept.map _))
  rw [List.map_flatten] at hflatten
  refine (List.nodup_flatten.mp hflatten).2.imp_of_mem fun {a b} ha _ hdisjoint heq => ?_
  obtain ⟨m, hm, rfl⟩ := List.mem_map.mp ha
  obtain ⟨e, he⟩ := List.exists_mem_of_ne_nil m (hne m hm)
  have hid := List.mem_map_of_mem (f := fun e : EventEnvelope => e.eventId.val) he
  exact hdisjoint hid (heq ▸ hid)

theorem candidateMatches_nil (P : Platform) (rule : SequenceRule) :
    candidateMatches P rule [] = .ok [] := by
  unfold candidateMatches
  split
  · rfl
  · split <;> rfl

/-! ## Suppression -/

theorem startsAt_startFor {start : DateTime} (h : StartsAt matched start) :
    StartsAt matched (startFor matched) := by
  rw [startFor_eq h]
  exact h

/-- The emitted candidates of one group. -/
theorem suppresses_of_emitted {group : List EventEnvelope} (horder : OccurredInOrder group)
    (hids : (group.map fun e => e.eventId.val).Nodup)
    (hlimit : rule.suppressionSeconds = some limit)
    (hfound : candidateMatches P rule group = .ok found)
    (hemitted : suppressAndDedupe P rule key found [] [] = .ok emitted) :
    Suppresses P rule key limit found emitted := by
  obtain ⟨hsub, hne, hsorted⟩ := candidateMatches_sound horder hfound
  obtain ⟨rfl, hread⟩ := suppressAndDedupe_eq_throttle hlimit (eventIds_nodup hids hsub hne)
    (fun _ _ => List.not_mem_nil) hemitted
  have hkept := @throttled _ _ _ _ (keyFor P rule key) _ _ _ _ _ (leaving_soonAfter limit) hsorted
  have hstart : ∀ m ∈ found, StartsAt m (startFor m) := by
    intro m hm
    obtain ⟨-, start, hstart⟩ := hread m hm
    exact startsAt_startFor hstart
  have hsame : ∀ a ∈ found, ∀ b ∈ found,
      keyFor P rule key a = keyFor P rule key b ↔
        suppressionKey P rule key a = suppressionKey P rule key b := by
    intro a ha b hb
    obtain ⟨⟨k, hk⟩, -⟩ := hread a ha
    obtain ⟨⟨k', hk'⟩, -⟩ := hread b hb
    rw [keyFor_eq hk, keyFor_eq hk', hk, hk', Except.ok.injEq]
  have hmem := hkept.sublist.subset
  refine ⟨hkept.sublist, hkept.apart.imp_of_mem fun {a b} ha hb hab hkey => ?_, fun b hb hdrop => ?_⟩
  · obtain ⟨hle, hsoon⟩ := hab ((hsame a (hmem ha) b (hmem hb)).mpr hkey)
    exact ⟨_, _, hstart a (hmem ha), hstart b (hmem hb), hle, hsoon,
      fun hnan => lt_secondsBetween hnan hsoon⟩
  · obtain ⟨a, ha, hpair, hkey, hsoon⟩ := hkept.dropped b hb hdrop
    have hle : startFor a ≤ startFor b := by
      simpa using hsorted.sublist hpair
    exact ⟨a, ha, hpair, (hsame a (hmem ha) b hb).mp hkey, _, _, hstart a (hmem ha), hstart b hb,
      hle, hsoon⟩

/-- **Suppression.** In every group of events with ids of their own, what is reported are the
candidates that suppression leaves. -/
theorem suppression_law {P : Platform} {rule : SequenceRule} {events : List EventEnvelope}
    {limit : Binary64} {reported : List DetectionMatch}
    (hids : (events.map fun e => e.eventId.val).Nodup)
    (hlimit : rule.suppressionSeconds = some limit)
    (h : evaluateSequenceRule P events rule = .ok reported) (key : List Str) :
    ∃ candidates emitted,
      candidateMatches P rule (correlationGroup P rule events key) = .ok candidates ∧
        reported.filter (fun m => m.groupKey = key) = emitted.map (reportedMatch rule key) ∧
          Suppresses P rule key limit candidates emitted := by
  unfold evaluateSequenceRule at h
  cases hstages : rule.stages with
  | nil =>
    rw [hstages] at h
    obtain rfl := Except.ok.inj h
    refine ⟨[], [], ?_, rfl, .slnil, .nil, fun b hb => by cases hb⟩
    rw [candidateMatches, hstages]
  | cons stage later =>
    rw [hstages] at h
    obtain ⟨grouped, hgrouped, h⟩ := bind_eq_ok.mp h
    obtain ⟨founds, hfounds, h⟩ := bind_eq_ok.mp h
    obtain rfl := Except.ok.inj h
    obtain ⟨-, hgroups⟩ := groupEvents_eq_ok hgrouped
    rcases filter_flatten_cases (mapM_eq_ok.mp hfounds) hgroups.nodup
      (fun _ _ hms => (evaluateGroup_sound hstages hms).1) key with
        ⟨habsent, hnone⟩ | ⟨⟨_, group⟩, hmem, hms, rfl⟩
    · have hempty : (events.filter fun e => groupKey P rule.groupBy e = .ok key) = [] := by
        by_contra hne
        exact habsent (List.mem_map_of_mem ((mem_groupEvents hgrouped).mpr ⟨hne, rfl, rfl⟩))
      refine ⟨[], [], ?_, by simpa using hnone, .slnil, .nil, fun b hb => by cases hb⟩
      rw [correlationGroup, hempty]
      exact candidateMatches_nil P rule
    · obtain ⟨-, hsorted, hgroup⟩ := (mem_groupEvents hgrouped).mp hmem
      obtain ⟨candidates, emitted, hcandidates, hemitted, hreported⟩ := evaluateGroup_eq_ok hms
      have hfound : candidateMatches P rule (sortEvents group) = .ok candidates := by
        rw [candidateMatches, hstages]
        exact hcandidates
      have hdistinct : ((sortEvents group).map fun e => e.eventId.val).Nodup := by
        have hperm : (sortEvents group).Perm group := List.perm_insertionSort _ group
        rw [(hperm.map _).nodup_iff, hgroup]
        exact hids.sublist (List.filter_sublist.map _)
      exact ⟨candidates, emitted, hsorted ▸ hfound, hreported,
        suppresses_of_emitted (sortEvents_occurredInOrder group) hdistinct hlimit hfound hemitted⟩

/-- A degradation of a run, at most one in ten seconds. -/
def spacedDegradation : SequenceRule where
  name := lit "spaced"
  stages := [{ eventType := lit "recorder.degraded", «where» := [] }]
  suppressionSeconds := some (.ofRatio false 10 1)

def degradedAt (id : Text) (sequence : Nat) (second : Fin 60) : EventEnvelope :=
  runEvent id (sampleText "recorder.degraded") degraded_documented sequence second

/-- Three degradations, each within ten seconds of the one before. -/
def degradationChain : List EventEnvelope :=
  [degradedAt (sampleText "e1") 0 ⟨0, by decide⟩, degradedAt (sampleText "e2") 1 ⟨8, by decide⟩,
    degradedAt (sampleText "e3") 2 ⟨16, by decide⟩]

/-- The second one is dropped, and the third is too late for the first. -/
theorem suppression_law_sample :
    ∃ candidates emitted,
      candidateMatches .plain spacedDegradation
          (correlationGroup .plain spacedDegradation degradationChain [lit "r"]) = .ok candidates ∧
        ([⟨lit "spaced", [lit "e1"], [lit "r"], none, lit "medium"⟩,
            ⟨lit "spaced", [lit "e3"], [lit "r"], none, lit "medium"⟩] : List DetectionMatch).filter
          (fun m => m.groupKey = [lit "r"]) = emitted.map (reportedMatch spacedDegradation [lit "r"]) ∧
        Suppresses .plain spacedDegradation [lit "r"] (.ofRatio false 10 1) candidates emitted :=
  suppression_law (by decide +kernel) rfl (by decide +kernel) [lit "r"]

end ActionLineage
