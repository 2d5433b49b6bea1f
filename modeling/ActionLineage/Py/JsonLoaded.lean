import ActionLineage.Py.JsonRoundTrip

/-!
# What `json.loads` returns

A repeated key keeps its last value, so in a loaded value no dict holds a key twice
(`loads_wellFormed`). The scanner keeps this of all the values it has read so far. Two documents that
are written as the same bytes are read as one value (`sortKeys_eq_of_dumpBytes`).
-/

namespace Py

namespace Scan

/-- The values of a frame that waits for one more. -/
def Frame.Holds (Q : Value → Prop) : Frame → Prop
  | .item xs => ∀ x ∈ xs, Q x
  | .member kvs _ => ∀ p ∈ kvs, Q p.2

/-- The values the mode has read. -/
def Mode.Holds (Q : Value → Prop) : Mode → Prop
  | .afterItem xs => ∀ x ∈ xs, Q x
  | .key _ kvs => ∀ p ∈ kvs, Q p.2
  | .colon kvs _ => ∀ p ∈ kvs, Q p.2
  | .afterMember kvs => ∀ p ∈ kvs, Q p.2
  | .text (some kvs) _ => ∀ p ∈ kvs, Q p.2
  | .done v => Q v
  | _ => True

/-- Every value read so far has the property. -/
structure Holds (Q : Value → Prop) (s : Scan) : Prop where
  frames : ∀ f ∈ s.stack, Frame.Holds Q f
  mode : Mode.Holds Q s.mode

/-- What the scanner builds from values with the property has it. -/
structure Builds (h : Hooks) (Q : Value → Prop) : Prop where
  token : ∀ {tok v}, tokenValue h tok = .ok v → Q v
  str : ∀ s, Q (.str s)
  list : ∀ {xs : List Value}, (∀ x ∈ xs, Q x) → Q (.list xs)
  object : ∀ {kvs o : Obj}, (∀ p ∈ kvs, Q p.2) → h.objectPairs kvs = .ok o → Q (.dict o)

variable {h : Hooks} {Q : Value → Prop}

theorem complete_holds {v : Value} {stack : List Frame} (hv : Q v)
    (hstack : ∀ f ∈ stack, Frame.Holds Q f) : Holds Q (complete v stack) := by
  cases stack with
  | nil => exact ⟨hstack, hv⟩
  | cons f stack =>
    have hrest : ∀ f ∈ stack, Frame.Holds Q f := fun f hf => hstack f (List.mem_cons_of_mem _ hf)
    have hf := hstack f List.mem_cons_self
    cases f with
    | item xs =>
      refine ⟨hrest, fun x hx => ?_⟩
      rcases List.mem_append.mp hx with hx | hx
      · exact hf x hx
      · exact List.mem_singleton.mp hx ▸ hv
    | member kvs k =>
      refine ⟨hrest, fun p hp => ?_⟩
      rcases List.mem_append.mp hp with hp | hp
      · exact hf p hp
      · exact List.mem_singleton.mp hp ▸ hv

theorem settle_holds (hQ : Builds h Q) {s s' : Scan} (hs : Holds Q s) (hsettle : settle h s = .ok s') :
    Holds Q s' := by
  unfold settle at hsettle
  split at hsettle
  · obtain ⟨v, hv, rfl⟩ := map_eq_ok.mp hsettle
    exact complete_holds (hQ.token hv) hs.frames
  · exact Except.ok.inj hsettle ▸ hs

theorem enter_holds {stack : List Frame} {m : Mode} {s : Scan}
    (hstack : ∀ f ∈ stack, Frame.Holds Q f) (hm : Mode.Holds Q m) (henter : enter h stack m = .ok s) :
    Holds Q s := by
  unfold enter at henter
  split at henter
  · exact Except.ok.inj henter ▸ ⟨hstack, hm⟩
  · cases henter

theorem startValue_holds {stack : List Frame} {c : CodePoint} {s : Scan}
    (hstack : ∀ f ∈ stack, Frame.Holds Q f) (hstart : startValue h stack c = .ok s) :
    Holds Q s := by
  unfold startValue at hstart
  split at hstart
  · exact Except.ok.inj hstart ▸ ⟨hstack, trivial⟩
  split at hstart
  · exact enter_holds (m := .firstItem) hstack trivial hstart
  split at hstart
  · exact enter_holds hstack (fun p hp => absurd hp List.not_mem_nil) hstart
  split at hstart
  · exact Except.ok.inj hstart ▸ ⟨hstack, trivial⟩
  · cases hstart

theorem closeObject_holds (hQ : Builds h Q) {stack : List Frame} {kvs : Obj} {s : Scan}
    (hstack : ∀ f ∈ stack, Frame.Holds Q f) (hkvs : ∀ p ∈ kvs, Q p.2)
    (hclose : closeObject h stack kvs = .ok s) : Holds Q s := by
  obtain ⟨o, ho, rfl⟩ := map_eq_ok.mp hclose
  exact complete_holds (hQ.object hkvs ho) hstack

theorem advance_holds (hQ : Builds h Q) {s s' : Scan} {c : CodePoint} (hs : Holds Q s)
    (hadvance : advance h s c = .ok s') : Holds Q s' := by
  obtain ⟨stack, mode⟩ := s
  obtain ⟨hstack, hmode⟩ := hs
  have hpush : ∀ f, Frame.Holds Q f → ∀ g ∈ f :: stack, Frame.Holds Q g :=
    fun f hf => List.forall_mem_cons.mpr ⟨hf, hstack⟩
  by_cases hspace : isSpace c = true ∧ ∀ key t, mode ≠ .text key t
  · have hsame : advance h ⟨stack, mode⟩ c = .ok ⟨stack, mode⟩ := by
      cases mode <;> simp_all [advance]
    rw [hsame] at hadvance
    exact Except.ok.inj hadvance ▸ ⟨hstack, hmode⟩
  have hspace : ∀ {m : Mode}, mode = m → (∀ key t, m ≠ .text key t) → isSpace c = false := by
    rintro m rfl hm
    by_contra hc
    exact hspace ⟨by simpa using hc, hm⟩
  cases mode with
  | text key t =>
    obtain ⟨r, -, rfl⟩ := map_eq_ok.mp hadvance
    cases r with
    | inl t => cases key <;> exact ⟨hstack, hmode⟩
    | inr text =>
      cases key with
      | none => exact complete_holds (hQ.str text) hstack
      | some kvs => exact ⟨hstack, hmode⟩
  | value =>
    simp only [advance, hspace rfl (by simp), Bool.false_eq_true, if_false] at hadvance
    exact startValue_holds hstack hadvance
  | firstItem =>
    simp only [advance, hspace rfl (by simp), Bool.false_eq_true, if_false] at hadvance
    split_ifs at hadvance
    · exact Except.ok.inj hadvance ▸ complete_holds (hQ.list fun x hx => absurd hx List.not_mem_nil) hstack
    · exact startValue_holds (hpush (.item []) fun x hx => absurd hx List.not_mem_nil) hadvance
  | afterItem xs =>
    simp only [advance, hspace rfl (by simp), Bool.false_eq_true, if_false] at hadvance
    split_ifs at hadvance
    · exact Except.ok.inj hadvance ▸ ⟨hpush (.item xs) hmode, trivial⟩
    · exact Except.ok.inj hadvance ▸ complete_holds (hQ.list hmode) hstack
  | key first kvs =>
    simp only [advance, hspace rfl (by simp), Bool.false_eq_true, if_false] at hadvance
    split_ifs at hadvance
    · exact Except.ok.inj hadvance ▸ ⟨hstack, hmode⟩
    · exact closeObject_holds hQ hstack hmode hadvance
  | colon kvs k =>
    simp only [advance, hspace rfl (by simp), Bool.false_eq_true, if_false] at hadvance
    split_ifs at hadvance
    exact Except.ok.inj hadvance ▸ ⟨hpush (.member kvs k) hmode, trivial⟩
  | afterMember kvs =>
    simp only [advance, hspace rfl (by simp), Bool.false_eq_true, if_false] at hadvance
    split_ifs at hadvance
    · exact Except.ok.inj hadvance ▸ ⟨hstack, hmode⟩
    · exact closeObject_holds hQ hstack hmode hadvance
  | token acc =>
    simp only [advance, hspace rfl (by simp), Bool.false_eq_true, if_false] at hadvance
    cases hadvance
  | done v =>
    simp only [advance, hspace rfl (by simp), Bool.false_eq_true, if_false] at hadvance
    cases hadvance

theorem step_holds (hQ : Builds h Q) {s s' : Scan} {c : CodePoint} (hs : Holds Q s)
    (hstep : step h s c = .ok s') : Holds Q s' := by
  unfold step at hstep
  split at hstep
  · split at hstep
    · exact Except.ok.inj hstep ▸ ⟨hs.frames, trivial⟩
    · obtain ⟨settled, hsettle, hstep⟩ := bind_eq_ok.mp hstep
      exact advance_holds hQ (settle_holds hQ hs hsettle) hstep
  · exact advance_holds hQ hs hstep

theorem run_holds (hQ : Builds h Q) {text : Str} {s s' : Scan} (hs : Holds Q s)
    (hrun : run h s text = .ok s') : Holds Q s' := by
  induction text generalizing s with
  | nil => exact Except.ok.inj hrun ▸ hs
  | cons c text ih =>
    obtain ⟨t, hstep, hrun⟩ := bind_eq_ok.mp hrun
    exact ih (step_holds hQ hs hstep) hrun

end Scan

/-- A property that the scanner builds up holds of what is loaded. -/
theorem loadsText_holds {h : Hooks} {Q : Value → Prop} (hQ : Scan.Builds h Q) {t : Str} {v : Value}
    (hload : loadsText h t = .ok v) : Q v := by
  obtain ⟨s, hrun, hfinish⟩ := bind_eq_ok.mp hload
  obtain ⟨settled, hsettle, hfinish⟩ := bind_eq_ok.mp hfinish
  have hs : Scan.Holds Q settled := Scan.settle_holds hQ
    (Scan.run_holds hQ (s := .start) ⟨fun f hf => absurd hf List.not_mem_nil, trivial⟩ hrun) hsettle
  split at hfinish
  · rename_i w hmode
    obtain rfl := Except.ok.inj hfinish
    have := hs.mode
    rwa [hmode] at this
  · cases hfinish

theorem tokenValue_wellFormed {n : Nat} {tok : Str} {v : Value}
    (h : Scan.tokenValue (.plain n) tok = .ok v) : v.WellFormed := by
  unfold Scan.tokenValue at h
  repeat' split at h
  all_goals first | cases h; trivial | cases h

theorem builds_wellFormed (n : Nat) : Scan.Builds (.plain n) Value.WellFormed where
  token := tokenValue_wellFormed
  str _ := trivial
  list h := (Value.all_list _).mpr h
  object h ho := by
    obtain rfl := Except.ok.inj ho
    exact (Value.all_dict _).mpr ⟨dictOf_keys_nodup _, fun p hp => h p (mem_dictOf hp)⟩

theorem loads_wellFormed {n : Nat} {data : Bytes} {v : Value}
    (h : loads (.plain n) data = .ok v) : v.WellFormed := by
  unfold loads at h
  split at h
  · cases h
  · exact loadsText_holds (builds_wellFormed n) h

/-- Documents with one serialization have the same members. -/
theorem sortKeys_eq_of_dumpBytes {a b : Obj} (ha : (Value.dict a).WellFormed)
    (hb : (Value.dict b).WellFormed) {doc : Bytes} (hdoc : dumpBytes (.dict a) = .ok doc)
    (hdoc' : dumpBytes (.dict b) = .ok doc) :
    (Value.dict a).sortKeys = (Value.dict b).sortKeys := by
  have hooks := Scan.keepsObjects_plain ((Value.dict a).height + (Value.dict b).height)
  have hread := loads_dumpBytes hooks ha (Nat.le_add_right _ _) hdoc
  have hread' := loads_dumpBytes hooks hb (Nat.le_add_left _ _) hdoc'
  exact Except.ok.inj (hread.symm.trans hread')

end Py
