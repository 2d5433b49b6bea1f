import ActionLineage.Detection.Sequence
import ActionLineage.OrderedScan

/-!
# What `_match_ordered` finds

The matcher walks the sorted events of a group from block to block (`OrderedScan`): each round takes
the first event for the stage that is due, and the window is tested once the block is complete. Of a
block it sees two instants only, those of the first candidate of the first stage and of the last
event. The scan raises exactly when a test of a stage that is due raises.
-/

namespace ActionLineage

open Py OrderedScan

variable (P : Platform)

/-- The event satisfies the stage. -/
def Satisfies (stage : SequenceStage) (event : EventEnvelope) : Prop :=
  eventMatchesStage P event stage = .ok true

/-- Testing the stage on the event raises. -/
def TestRaises (stage : SequenceStage) (event : EventEnvelope) : Prop :=
  ∃ exc, eventMatchesStage P event stage = .error exc

/-- The time between two events is within the limit, if there is one. -/
def WithinLimit (withinSeconds : Option Binary64) (a z : EventEnvelope) : Prop :=
  ∀ limit, withinSeconds = some limit → (secondsBetween a.occurredAt z.occurredAt).le limit = true

/-- Some block spans, from the first candidate of the first stage to its end, at most the limit. -/
def FittingBlock (stage : SequenceStage) (later : List SequenceStage)
    (withinSeconds : Option Binary64) (events : List EventEnvelope) : Prop :=
  ∃ seg rest a z, Reaches (Satisfies P) (stage :: later) events (seg ++ rest) ∧
    IsBlock (Satisfies P) (stage :: later) seg ∧ Bounds (Satisfies P stage) seg a z ∧
    WithinLimit withinSeconds a z

/-- No test of a stage that is due, in any block, raises. -/
def TestsReturn (stages : List SequenceStage) (events : List EventEnvelope) : Prop :=
  ∀ left, Reaches (Satisfies P) stages events left →
    ∀ stage event, DueAt (Satisfies P) stages left stage event → ¬ TestRaises P stage event

variable {P}

/-! ## One round -/

/-- What one round reports of the events. -/
def RoundReports (P : Platform) (stage : SequenceStage) (later : List SequenceStage)
    (events : List EventEnvelope) :
    Except PyError (Option (List EventEnvelope × List EventEnvelope)) → Prop
  | .error _ => ∃ s e, DueAt (Satisfies P) (stage :: later) events s e ∧ TestRaises P s e
  | .ok none =>
    (∀ s e, DueAt (Satisfies P) (stage :: later) events s e → ¬ TestRaises P s e) ∧
      ¬ Contains (Satisfies P) (stage :: later) events
  | .ok (some (matched, rest)) =>
    (∀ s e, DueAt (Satisfies P) (stage :: later) events s e → ¬ TestRaises P s e) ∧
      ∃ seg a z, events = seg ++ rest ∧ IsBlock (Satisfies P) (stage :: later) seg ∧
        Bounds (Satisfies P stage) seg a z ∧ matched.Sublist seg ∧ matched.head? = some a ∧
        matched.getLast? = some z ∧ matched.length = later.length + 1

section Round

variable {stage next : SequenceStage} {later : List SequenceStage} {event : EventEnvelope}
  {events : List EventEnvelope}

theorem not_satisfies (h : eventMatchesStage P event stage = .ok false) :
    ¬ Satisfies P stage event := by
  intro hs
  rw [Satisfies, h] at hs
  cases hs

theorem not_testRaises {b : Bool} (h : eventMatchesStage P event stage = .ok b) :
    ¬ TestRaises P stage event := by
  rintro ⟨exc, hexc⟩
  rw [h] at hexc
  cases hexc

/-- The round after an event that does not match. -/
theorem roundReports_skip (h : eventMatchesStage P event stage = .ok false)
    {r : Except PyError (Option (List EventEnvelope × List EventEnvelope))}
    (hr : RoundReports P stage later events r) : RoundReports P stage later (event :: events) r := by
  have hno := not_satisfies h
  have hdue : (∀ s e, DueAt (Satisfies P) (stage :: later) events s e → ¬ TestRaises P s e) →
      ∀ s e, DueAt (Satisfies P) (stage :: later) (event :: events) s e → ¬ TestRaises P s e := by
    intro hprev s e hd
    rcases (dueAt_cons_of_not hno).mp hd with ⟨rfl, rfl⟩ | hd
    · exact not_testRaises h
    · exact hprev s e hd
  match r, hr with
  | .error _, ⟨s, e, hd, hraise⟩ => exact ⟨s, e, (dueAt_cons_of_not hno).mpr (.inr hd), hraise⟩
  | .ok none, ⟨hprev, hc⟩ => exact ⟨hdue hprev, fun hc' => hc ((contains_cons_of_not hno).mp hc')⟩
  | .ok (some (matched, rest)), ⟨hprev, seg, a, z, hseg, hb, hbounds, hsub, hhead, hlast, hlen⟩ =>
    exact ⟨hdue hprev, event :: seg, a, z, by rw [hseg]; rfl, (isBlock_cons_of_not hno).mpr hb,
      hbounds.cons hno, hsub.cons event, hhead, hlast, hlen⟩

/-- The round after the event taken for the first stage, with stages to come. -/
theorem roundReports_take (h : eventMatchesStage P event stage = .ok true)
    {r : Except PyError (Option (List EventEnvelope × List EventEnvelope))}
    (hr : RoundReports P next later events r) :
    RoundReports P stage (next :: later) (event :: events)
      (r.map fun scanned => scanned.map fun q => (event :: q.1, q.2)) := by
  have hsat : Satisfies P stage event := h
  have hdue : (∀ s e, DueAt (Satisfies P) (next :: later) events s e → ¬ TestRaises P s e) →
      ∀ s e, DueAt (Satisfies P) (stage :: next :: later) (event :: events) s e →
        ¬ TestRaises P s e := by
    intro hprev s e hd
    rcases (dueAt_cons_of_sat hsat).mp hd with ⟨rfl, rfl⟩ | hd
    · exact not_testRaises h
    · exact hprev s e hd
  match r, hr with
  | .error _, ⟨s, e, hd, hraise⟩ => exact ⟨s, e, (dueAt_cons_of_sat hsat).mpr (.inr hd), hraise⟩
  | .ok none, ⟨hprev, hc⟩ => exact ⟨hdue hprev, fun hc' => hc ((contains_cons_of_sat hsat).mp hc')⟩
  | .ok (some (matched, rest)), ⟨hprev, seg, a, z, hseg, hb, hbounds, hsub, _, hlast, hlen⟩ =>
    refine ⟨hdue hprev, event :: seg, event, z, by rw [hseg]; rfl,
      (isBlock_cons_of_sat hsat).mpr hb, ⟨⟨[], seg, rfl, h, by simp⟩, ?_⟩, hsub.cons_cons event, rfl,
      ?_, by simp [hlen]⟩
    · rw [List.getLast?_cons, hbounds.last]
      rfl
    · simp [List.getLast?_cons, hlast]

/-- The round that ends with the event taken for the only stage. -/
theorem roundReports_last (h : eventMatchesStage P event stage = .ok true) :
    RoundReports P stage [] (event :: events) (.ok (some ([event], events))) := by
  have hsat : Satisfies P stage event := h
  refine ⟨fun s e hd => ?_, [event], event, event, rfl,
    (isBlock_cons_of_sat hsat).mpr (isBlock_nil.mpr rfl), ⟨⟨[], [], rfl, h, by simp⟩, rfl⟩,
    List.Sublist.refl _, rfl, rfl, rfl⟩
  rcases (dueAt_cons_of_sat hsat).mp hd with ⟨rfl, rfl⟩ | hd
  · exact not_testRaises h
  · exact absurd hd not_dueAt_of_no_stage

end Round

/-- The induction follows the scan: the events are consumed one by one, the stages now and then. -/
theorem scanStages_reports (events : List EventEnvelope) (stage : SequenceStage)
    (later : List SequenceStage) :
    RoundReports P stage later events (scanStages P events stage later) := by
  induction events generalizing stage later with
  | nil => exact ⟨fun s e hd => absurd hd not_dueAt_nil, not_contains_nil⟩
  | cons event events ih =>
    unfold scanStages
    cases h : eventMatchesStage P event stage with
    | error exc => exact ⟨stage, event, dueAt_head _ _ _ _, exc, h⟩
    | ok b =>
      cases b with
      | false => exact roundReports_skip h (ih stage later)
      | true =>
        cases later with
        | nil => exact roundReports_last h
        | cons next later => exact roundReports_take h (ih next later)

/-! ## The window -/

def OccurredInOrder (events : List EventEnvelope) : Prop :=
  events.Pairwise fun a b => a.occurredAt ≤ b.occurredAt

theorem secondsBetween_self (d : DateTime) :
    secondsBetween d d = .finite false ⟨0, by decide⟩ := by
  rw [secondsBetween, sub_self, totalSeconds_zero]

theorem occurrences_min {events : List EventEnvelope} (h : OccurredInOrder events)
    {a : EventEnvelope} (ha : events.head? = some a) :
    (occurrences events).min? = some a.occurredAt := by
  cases events with
  | nil => cases ha
  | cons e events =>
    obtain rfl := Option.some.inj ha
    refine List.min?_eq_some_iff.mpr ⟨by simp [occurrences], fun d hd => ?_⟩
    obtain ⟨e', he', rfl⟩ := List.mem_map.mp hd
    rcases List.mem_cons.mp he' with rfl | he'
    · exact le_refl _
    · exact (List.pairwise_cons.mp h).1 e' he'

theorem occurrences_max {events : List EventEnvelope} (h : OccurredInOrder events)
    {z : EventEnvelope} (hz : events.getLast? = some z) :
    (occurrences events).max? = some z.occurredAt := by
  obtain ⟨init, rfl⟩ := List.getLast?_eq_some_iff.mp hz
  refine List.max?_eq_some_iff.mpr ⟨by simp [occurrences], fun d hd => ?_⟩
  obtain ⟨e', he', rfl⟩ := List.mem_map.mp hd
  rcases List.mem_append.mp he' with he' | he'
  · exact (List.pairwise_append.mp h).2.2 e' he' z (by simp)
  · rw [List.mem_singleton.mp he']

theorem head_eq_getLast {events : List EventEnvelope} {a z : EventEnvelope}
    (hlen : events.length < 2) (ha : events.head? = some a) (hz : events.getLast? = some z) :
    a = z := by
  cases events with
  | nil => cases ha
  | cons e events =>
    obtain rfl : events = [] := List.length_eq_zero_iff.mp (by simpa using hlen)
    exact (Option.some.inj ha).symm.trans (Option.some.inj hz)

/-- Of events in order of time, the window test sees the first and the last. -/
theorem withinWindow_iff {events : List EventEnvelope} {withinSeconds : Option Binary64}
    {a z : EventEnvelope} (h : OccurredInOrder events) (ha : events.head? = some a)
    (hz : events.getLast? = some z)
    (hone : events.length < 2 → WithinLimit withinSeconds a a) :
    withinWindow events withinSeconds = true ↔ WithinLimit withinSeconds a z := by
  cases withinSeconds with
  | none => simp [withinWindow, WithinLimit]
  | some limit =>
    have hlimit : WithinLimit (some limit) a z ↔
        (secondsBetween a.occurredAt z.occurredAt).le limit = true := by simp [WithinLimit]
    rw [hlimit]
    by_cases hlen : events.length < 2
    · -- a single event is within every window, and so is its own instant by assumption
      obtain rfl : a = z := head_eq_getLast hlen ha hz
      simp [withinWindow, hlen, hone hlen limit rfl]
    · simp [withinWindow, hlen, occurrences_min h ha, occurrences_max h hz]

/-! ## All rounds -/

section Rounds

variable {stage : SequenceStage} {later : List SequenceStage} {withinSeconds : Option Binary64}

theorem testsReturn_append_iff {seg rest : List EventEnvelope}
    (hb : IsBlock (Satisfies P) (stage :: later) seg) :
    TestsReturn P (stage :: later) (seg ++ rest) ↔
      (∀ s e, DueAt (Satisfies P) (stage :: later) (seg ++ rest) s e → ¬ TestRaises P s e) ∧
        TestsReturn P (stage :: later) rest := by
  simp only [TestsReturn, reaches_append_iff hb]
  constructor
  · intro h
    exact ⟨h _ (.inl rfl), fun left hleft => h left (.inr hleft)⟩
  · rintro ⟨hfirst, hrest⟩ left (rfl | hleft)
    · exact hfirst
    · exact hrest left hleft

theorem fittingBlock_append_iff {seg rest : List EventEnvelope} {a z : EventEnvelope}
    (hb : IsBlock (Satisfies P) (stage :: later) seg) (hbounds : Bounds (Satisfies P stage) seg a z) :
    FittingBlock P stage later withinSeconds (seg ++ rest) ↔
      WithinLimit withinSeconds a z ∨ FittingBlock P stage later withinSeconds rest := by
  constructor
  · rintro ⟨seg', rest', a', z', hreach, hb', hbounds', hwithin⟩
    rcases (reaches_append_iff hb).mp hreach with heq | hreach
    · obtain rfl := hb'.unique hb heq
      obtain ⟨rfl, rfl⟩ := hbounds.unique hbounds'
      exact .inl hwithin
    · exact .inr ⟨seg', rest', a', z', hreach, hb', hbounds', hwithin⟩
  · rintro (hwithin | ⟨seg', rest', a', z', hreach, hb', hbounds', hwithin⟩)
    · exact ⟨seg, rest, a, z, .refl _, hb, hbounds, hwithin⟩
    · exact ⟨seg', rest', a', z', .block hb hreach, hb', hbounds', hwithin⟩

theorem not_fittingBlock {events : List EventEnvelope}
    (h : ¬ Contains (Satisfies P) (stage :: later) events) :
    ¬ FittingBlock P stage later withinSeconds events := by
  rintro ⟨seg, rest, a, z, hreach, hb, -⟩
  rw [reaches_iff_of_not_contains h] at hreach
  exact h (hreach ▸ hb.contains.append rest)

/-- What the matcher reports of the events. -/
def MatcherReports (P : Platform) (stage : SequenceStage) (later : List SequenceStage)
    (withinSeconds : Option Binary64) (events : List EventEnvelope) :
    Except PyError (List (List EventEnvelope)) → Prop
  | .error _ => ¬ TestsReturn P (stage :: later) events
  | .ok found =>
    TestsReturn P (stage :: later) events ∧
      (found ≠ [] ↔ FittingBlock P stage later withinSeconds events) ∧ ∀ m ∈ found, m ≠ []

/-- The induction is on the rounds; each consumes the block it finds. -/
theorem matchOrdered_reports {fuel : Nat} {events : List EventEnvelope}
    (hfuel : events.length ≤ fuel) (horder : OccurredInOrder events)
    (hone : later = [] → ∀ a, WithinLimit withinSeconds a a) :
    MatcherReports P stage later withinSeconds events
      (matchOrdered P stage later withinSeconds fuel events) := by
  induction fuel generalizing events with
  | zero =>
    obtain rfl := List.length_eq_zero_iff.mp (Nat.le_zero.mp hfuel)
    have hc : ¬ Contains (Satisfies P) (stage :: later) [] := not_contains_nil
    refine ⟨fun left hleft s e hd => ?_, by simpa using not_fittingBlock hc, by simp⟩
    obtain rfl := (reaches_iff_of_not_contains hc).mp hleft
    exact absurd hd not_dueAt_nil
  | succ fuel ih =>
    have hround := scanStages_reports (P := P) events stage later
    rw [matchOrdered]
    cases hscan : scanStages P events stage later with
    | error exc =>
      rw [hscan] at hround
      obtain ⟨s, e, hd, hraise⟩ := hround
      exact fun htests => htests events (.refl _) s e hd hraise
    | ok scanned =>
      rw [hscan] at hround
      cases scanned with
      | none =>
        obtain ⟨hdue, hc⟩ := hround
        refine ⟨fun left hleft => ?_, by simpa using not_fittingBlock hc, by simp⟩
        obtain rfl := (reaches_iff_of_not_contains hc).mp hleft
        exact hdue
      | some scanned =>
        obtain ⟨matched, rest⟩ := scanned
        obtain ⟨hdue, seg, a, z, rfl, hb, hbounds, hsub, hhead, hlast, hlen⟩ := hround
        have hseg : 0 < seg.length := List.length_pos_iff.mpr hb.ne_nil
        have hrest : rest.length ≤ fuel := by
          rw [List.length_append] at hfuel
          omega
        have horders := List.pairwise_append.mp horder
        have hmatched : OccurredInOrder matched := horders.1.sublist hsub
        have hwindow := withinWindow_iff hmatched hhead hlast fun hshort =>
          hone (List.length_eq_zero_iff.mp (by omega)) a
        have hih := ih hrest horders.2.1
        cases hfound : matchOrdered P stage later withinSeconds fuel rest with
        | error exc =>
          rw [hfound] at hih
          simp only [bind, Except.bind, hfound]
          exact fun htests => hih ((testsReturn_append_iff hb).mp htests).2
        | ok found =>
          rw [hfound] at hih
          obtain ⟨htests, hfit, hne⟩ := hih
          have hm : matched ≠ [] := by
            rintro rfl
            cases hhead
          simp only [bind, Except.bind, hfound]
          refine ⟨(testsReturn_append_iff hb).mpr ⟨hdue, htests⟩, ?_, ?_⟩
          · rw [fittingBlock_append_iff hb hbounds, ← hfit, ← hwindow]
            split <;> simp [*]
          · intro m hmem
            split at hmem
            · rcases List.mem_cons.mp hmem with rfl | hmem
              · exact hm
              · exact hne m hmem
            · exact hne m hmem

end Rounds

end ActionLineage
