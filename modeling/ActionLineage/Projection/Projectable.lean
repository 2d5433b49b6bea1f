import ActionLineage.Journal.Append
import ActionLineage.Projection.TimelineOrder

/-!
# Which reachable journals can be projected

The projector refuses an event id that is already indexed; the writer does not look at event ids.
A journal written by any sequence of appends, each under its own policy, is therefore projectable
exactly when the persisted ids are pairwise distinct and every append left the chain intact
(`reachable_projectable_iff`).
-/

namespace ActionLineage

open Py

variable {P : Platform}

/-! ## Indexing needs distinct ids -/

theorem eventProjectionValues_key {e : EventEnvelope} {n : ℕ} {r : EventRow}
    (h : eventProjectionValues P e n = .ok r) :
    r.eventId = e.eventId.val ∧ r.journalRecordNumber = n := by
  obtain ⟨o, -, h⟩ := bind_eq_ok.mp h
  obtain ⟨b, -, h⟩ := bind_eq_ok.mp h
  obtain ⟨t, -, h⟩ := bind_eq_ok.mp h
  obtain rfl := Except.ok.inj h
  exact ⟨rfl, rfl⟩

theorem indexEvent_eq_ok {rows : List EventRow} {e : EventEnvelope} {n : ℕ} {inserted : Bool}
    {rows' : List EventRow} (hbelow : ∀ r ∈ rows, r.journalRecordNumber < n)
    (h : indexEvent P rows e n = .ok (inserted, rows')) :
    (∀ r ∈ rows, r.eventId ≠ e.eventId.val) ∧
      ∃ r, rows' = rows ++ [r] ∧ eventProjectionValues P e n = .ok r := by
  obtain ⟨_, -, h⟩ := bind_eq_ok.mp h
  obtain ⟨row, hrow, h⟩ := bind_eq_ok.mp h
  cases hfind : rows.find? fun r => r.eventId == e.eventId.val with
  | some existing =>
    -- an indexed event with this id has a smaller record number
    have hlt := hbelow existing (List.mem_of_find?_eq_some hfind)
    rw [hfind] at h
    simp only at h
    rw [if_neg fun hsame => absurd hsame.1 (Nat.ne_of_lt hlt)] at h
    cases h
  | none =>
    rw [hfind] at h
    obtain ⟨-, rfl⟩ := Prod.mk.inj (Except.ok.inj h)
    refine ⟨fun r hr => ?_, row, rfl, hrow⟩
    simpa using List.find?_eq_none.mp hfind r hr

theorem nodup_of_indexEvents {es : List EventEnvelope} {rows rows' : List EventRow} {n : ℕ}
    (hbelow : ∀ r ∈ rows, r.journalRecordNumber < n)
    (h : indexEvents P rows n es = .ok rows') :
    (es.map (·.eventId)).Nodup ∧ ∀ e ∈ es, ∀ r ∈ rows, r.eventId ≠ e.eventId.val := by
  induction es generalizing rows n with
  | nil => simp
  | cons e es ih =>
    obtain ⟨⟨inserted, rows₁⟩, hindex, h⟩ := bind_eq_ok.mp h
    obtain ⟨hnew, r, rfl, hvalues⟩ := indexEvent_eq_ok hbelow hindex
    obtain ⟨hid, hnumber⟩ := eventProjectionValues_key hvalues
    have hbelow' : ∀ q ∈ rows ++ [r], q.journalRecordNumber < n + 1 := by
      intro q hq
      rcases List.mem_append.mp hq with hq | hq
      · exact Nat.lt_succ_of_lt (hbelow q hq)
      · rw [List.mem_singleton.mp hq, hnumber]
        exact Nat.lt_succ_self n
    obtain ⟨hnodup, hdisjoint⟩ := ih hbelow' h
    refine ⟨List.nodup_cons.mpr ⟨fun hmem => ?_, hnodup⟩, fun f hf q hq => ?_⟩
    · obtain ⟨f, hf, heq⟩ := List.mem_map.mp hmem
      exact hdisjoint f hf r (by simp) (by rw [hid, heq])
    · rcases List.mem_cons.mp hf with rfl | hf
      · exact hnew q hq
      · exact hdisjoint f hf q (List.mem_append_left _ hq)

/-- The journal has a projection with the given number of rows. -/
def ProjectsTo (P : Platform) (content : Content) (records : ℕ) : Prop :=
  ∃ rows, rebuildProjection P content = .ok rows ∧ rows.length = records

/-- A projection exists exactly for a verified journal with distinct event ids. -/
theorem projectsTo_iff {content : Content} {n : ℕ} :
    ProjectsTo P content n ↔
      ∃ es, Verified P content es ∧ (es.map (·.eventId)).Nodup ∧ es.length = n := by
  constructor
  · rintro ⟨rows, hrows, hlen⟩
    obtain ⟨s, hs, h⟩ := bind_eq_ok.mp hrows
    obtain ⟨_, hok, h⟩ := bind_eq_ok.mp h
    obtain ⟨es, hv, rfl⟩ := snapshot_ok_iff.mp ⟨hs, require_eq_ok.mp hok⟩
    obtain ⟨rows', hindex, -⟩ := bind_eq_ok.mp h
    obtain ⟨hnodup, -⟩ := nodup_of_indexEvents (by simp) hindex
    obtain ⟨rows'', hrows', hrel⟩ := rebuildProjection_of_verified hv hnodup
    obtain rfl := Except.ok.inj (hrows.symm.trans hrows')
    refine ⟨es, hv, hnodup, ?_⟩
    rw [← hlen, ← hrel.length_eq, List.length_zipIdx]
  · rintro ⟨es, hv, hnodup, rfl⟩
    obtain ⟨rows, hrows, hrel⟩ := rebuildProjection_of_verified hv hnodup
    exact ⟨rows, hrows, by rw [← hrel.length_eq, List.length_zipIdx]⟩

/-! ## Runs -/

/-- Calls, each under the policy of the journal object that makes it. -/
def runAppendsUnder (P : Platform) :
    Content → List (RedactionPolicy × EventEnvelope) →
      List (Except PyError EventEnvelope) × Content
  | content, [] => ([], content)
  | content, (policy, e) :: calls =>
    let step := appendEvent P policy content e
    let rest := runAppendsUnder P step.2 calls
    (step.1 :: rest.1, rest.2)

/-- Every successful append left the text of the terminal hash alone. -/
def ChainKept (P : Platform) :
    Content → List EventEnvelope → List (RedactionPolicy × EventEnvelope) → Prop
  | _, _, [] => True
  | content, es, (policy, e) :: calls =>
    match appendEvent P policy content e with
    | (.ok r, after) => KeepsHash policy (terminalHash none es) ∧ ChainKept P after (es ++ [r]) calls
    | (.error _, after) => ChainKept P after es calls

theorem runAppendsUnder_refused {content : Content} (hno : ∀ es, ¬ Verified P content es)
    (calls : List (RedactionPolicy × EventEnvelope)) :
    (runAppendsUnder P content calls).2 = content := by
  induction calls with
  | nil => rfl
  | cons call calls ih =>
    obtain ⟨policy, e⟩ := call
    cases hstep : appendEvent P policy content e with
    | mk result after =>
      cases result with
      | ok r =>
        obtain ⟨es, hv⟩ := verified_of_appendEvent hstep
        exact absurd hv (hno es)
      | error exc =>
        simp only [runAppendsUnder, hstep, appendEvent_error hstep]
        exact ih

theorem verified_of_chainKept {content : Content} {es : List EventEnvelope}
    (hv : Verified P content es) {calls : List (RedactionPolicy × EventEnvelope)}
    (hkept : ChainKept P content es calls) :
    Verified P (runAppendsUnder P content calls).2
      (es ++ returned (runAppendsUnder P content calls).1) := by
  induction calls generalizing content es with
  | nil => simpa [runAppendsUnder, returned] using hv
  | cons call calls ih =>
    obtain ⟨policy, e⟩ := call
    cases hstep : appendEvent P policy content e with
    | mk result after =>
      cases result with
      | error exc =>
        obtain rfl := appendEvent_error hstep
        simp only [ChainKept, hstep] at hkept
        simpa only [runAppendsUnder, hstep, returned_error] using ih hv hkept
      | ok r =>
        simp only [ChainKept, hstep] at hkept
        have hrest := ih (hv.append hstep hkept.1) hkept.2
        simpa only [runAppendsUnder, hstep, returned_ok, List.append_assoc,
          List.singleton_append] using hrest

/-- A run leaves a verified journal, of the events it returned, exactly when it kept the chain. -/
theorem runAppendsUnder_verified_iff (hinj : Function.Injective P.sha256Hex) {content : Content}
    {es : List EventEnvelope} (hv : Verified P content es)
    (calls : List (RedactionPolicy × EventEnvelope)) :
    (∃ es', Verified P (runAppendsUnder P content calls).2 es') ↔ ChainKept P content es calls := by
  refine ⟨fun h => ?_, fun hkept => ⟨_, verified_of_chainKept hv hkept⟩⟩
  obtain ⟨es', hv'⟩ := h
  induction calls generalizing content es with
  | nil => trivial
  | cons call calls ih =>
    obtain ⟨policy, e⟩ := call
    cases hstep : appendEvent P policy content e with
    | mk result after =>
      simp only [runAppendsUnder, hstep] at hv'
      cases result with
      | error exc =>
        obtain rfl := appendEvent_error hstep
        simpa only [ChainKept, hstep] using ih hv hv'
      | ok r =>
        simp only [ChainKept, hstep]
        have hk : KeepsHash policy (terminalHash none es) := by
          by_contra hk
          -- the chain is broken, and every later append is refused
          have hno : ∀ es', ¬ Verified P after es' := fun es' hv' =>
            hk (hv.keepsHash_of_append hinj hstep hv')
          rw [runAppendsUnder_refused hno] at hv'
          exact hno es' hv'
        exact ⟨hk, ih (hv.append hstep hk) hv'⟩

/-- The journal of a run has a row for each record exactly when the run kept the chain and the
events it persisted have pairwise distinct ids. -/
theorem reachable_projectable_iff (hinj : Function.Injective P.sha256Hex)
    (calls : List (RedactionPolicy × EventEnvelope)) :
    let run := runAppendsUnder P none calls
    ProjectsTo P run.2 (returned run.1).length ↔
      ChainKept P none [] calls ∧ ((returned run.1).map (·.eventId)).Nodup := by
  intro run
  have hnil : Verified P none [] := verified_nil rfl
  rw [projectsTo_iff]
  constructor
  · rintro ⟨es, hv, hnodup, -⟩
    have hkept := (runAppendsUnder_verified_iff hinj hnil calls).mp ⟨es, hv⟩
    obtain rfl := hv.unique (verified_of_chainKept hnil hkept)
    exact ⟨hkept, hnodup⟩
  · rintro ⟨hkept, hnodup⟩
    exact ⟨_, verified_of_chainKept hnil hkept, hnodup, rfl⟩

theorem reachable_projectable_iff_sample :
    let calls := [(RedactionPolicy.default .plain, firstEvent), (.default .plain, secondEvent)]
    let run := runAppendsUnder .plain none calls
    ProjectsTo .plain run.2 (returned run.1).length ↔
      ChainKept .plain none [] calls ∧ ((returned run.1).map (·.eventId)).Nodup :=
  reachable_projectable_iff Platform.plain_injective _

/-- Another event under the id of `firstEvent`. -/
def repeatedEvent : EventEnvelope := sampleEvent (sampleText "a") 1 emptyPayload

/-- Both appends return, the journal verifies, and the projector refuses it. -/
theorem repeated_id_unprojectable :
    let P := Platform.checksummed
    let run := runAppendsUnder P none
      [(RedactionPolicy.default P, firstEvent), (RedactionPolicy.default P, repeatedEvent)]
    (returned run.1).length = 2 ∧
      (verifiedJournalSnapshot P run.2 none .null).map (·.ok) = .ok true ∧
      (rebuildProjection P run.2).map List.length =
        .error (.eventAlreadyIndexed (lit "a")) := by
  decide +kernel

end ActionLineage
