import ActionLineage.Domain.Redaction
import ActionLineage.Domain.Serialization

/-!
# What redaction does to a value

`Redacts path v w` says `w` is what the policy makes of `v` at `path`, for some depth and budget.
`redacts_shape` reads one step of the walk: a sensitive path gives the marker, anything else keeps
its shape (`RedactShape`). Everything below follows from it by induction on the value; in
particular depth and budget can make redaction raise but not change what it returns
(`redacts_unique`).
-/

namespace ActionLineage

open Py

variable {P : Platform} {policy : RedactionPolicy}

/-- `w` is what the policy makes of `v` at `path`. -/
def Redacts (P : Platform) (policy : RedactionPolicy) (path : Path) (v w : Value) : Prop :=
  ∃ depth budget budget', redactValue P policy path depth budget v = .ok (w, budget')

/-- A member keeps its key and is redacted at the path extended by the lower-cased key. -/
def RedactsMember (P : Platform) (policy : RedactionPolicy) (path : Path) (p q : Str × Value) :
    Prop :=
  q.1 = p.1 ∧ Redacts P policy (path ++ [P.lower p.1]) p.2 q.2

/-- What comes out at a path that is not sensitive. -/
def RedactShape (P : Platform) (policy : RedactionPolicy) (path : Path) (v w : Value) : Prop :=
  match v with
  | .str s => ∃ t, redactText policy s = .ok t ∧
      if isCaptureExemptPath path policy = true then w = .str t
      else captureString P policy.maxStringLength t = .ok w
  | .bytes b => captureBytes P policy.maxBytesLength b = .ok w
  | .dict kvs => ∃ out, w = .dict out ∧ List.Forall₂ (RedactsMember P policy path) kvs out
  | .list xs => ∃ out, w = .list out ∧ List.Forall₂ (Redacts P policy path) xs out
  | v => w = v

/-! ## One step of the walk -/

theorem redactMembers_forall₂ {path : Path} {depth : Nat} {budget budget' : CaptureBudget}
    {kvs out : Obj} (h : redactMembers P policy path depth budget kvs = .ok (out, budget')) :
    List.Forall₂ (RedactsMember P policy path) kvs out := by
  induction kvs generalizing budget budget' out with
  | nil =>
    rw [redactMembers, Except.ok.injEq, Prod.mk.injEq] at h
    rw [← h.1]
    exact .nil
  | cons p kvs ih =>
    rw [redactMembers] at h
    obtain ⟨r, hr, h⟩ := bind_eq_ok.mp h
    obtain ⟨rs, hrs, h⟩ := bind_eq_ok.mp h
    rw [Except.ok.injEq, Prod.mk.injEq] at h
    rw [← h.1]
    exact .cons ⟨rfl, depth, budget, r.2, hr⟩ (ih hrs)

theorem redactItems_forall₂ {path : Path} {depth : Nat} {budget budget' : CaptureBudget}
    {xs out : List Value} (h : redactItems P policy path depth budget xs = .ok (out, budget')) :
    List.Forall₂ (Redacts P policy path) xs out := by
  induction xs generalizing budget budget' out with
  | nil =>
    rw [redactItems, Except.ok.injEq, Prod.mk.injEq] at h
    rw [← h.1]
    exact .nil
  | cons x xs ih =>
    rw [redactItems] at h
    obtain ⟨r, hr, h⟩ := bind_eq_ok.mp h
    obtain ⟨rs, hrs, h⟩ := bind_eq_ok.mp h
    rw [Except.ok.injEq, Prod.mk.injEq] at h
    rw [← h.1]
    exact .cons ⟨depth, budget, r.2, hr⟩ (ih hrs)

/-- Either the path is sensitive, or the walk looks at the value. -/
theorem guard_eq_ok {b : Bool} {m w : Value} {c c' : CaptureBudget}
    {k : Except PyError (Value × CaptureBudget)}
    (h : (if b = true then .ok (m, c) else k) = .ok (w, c')) :
    (b = true ∧ w = m) ∨ (b = false ∧ k = .ok (w, c')) := by
  cases b with
  | true =>
    simp only [if_true, Except.ok.injEq, Prod.mk.injEq] at h
    exact .inl ⟨rfl, h.1.symm⟩
  | false =>
    simp only [Bool.false_eq_true, if_false] at h
    exact .inr ⟨rfl, h⟩

theorem redactValue_sensitive {path : Path} (hs : isSensitive P path policy = true) (depth : Nat)
    (budget : CaptureBudget) (v : Value) :
    redactValue P policy path depth budget v = .ok (redactedMarker (lit "sensitive"), budget) := by
  cases v <;> simp [redactValue, hs]

theorem fst_eq_of_ok {ε α β : Type} {a a' : α} {b b' : β}
    (h : (Except.ok (a, b) : Except ε (α × β)) = .ok (a', b')) : a' = a := by
  simp only [Except.ok.injEq, Prod.mk.injEq] at h
  exact h.1.symm

theorem redacts_shape {path : Path} {v w : Value} (h : Redacts P policy path v w) :
    (isSensitive P path policy = true ∧ w = redactedMarker (lit "sensitive")) ∨
      (isSensitive P path policy = false ∧ RedactShape P policy path v w) := by
  obtain ⟨depth, budget, budget', h⟩ := h
  cases v with
  | str s =>
    rw [redactValue] at h
    refine (guard_eq_ok h).imp_right fun ⟨hs, h⟩ => ⟨hs, ?_⟩
    obtain ⟨-, -, h⟩ := bind_eq_ok.mp h
    obtain ⟨t, ht, h⟩ := bind_eq_ok.mp h
    refine ⟨t, ht, ?_⟩
    split_ifs at h ⊢
    · exact fst_eq_of_ok h
    · obtain ⟨c, hc, h⟩ := bind_eq_ok.mp h
      obtain ⟨b, -, h⟩ := bind_eq_ok.mp h
      rw [fst_eq_of_ok h]
      exact hc
  | bytes b =>
    rw [redactValue] at h
    refine (guard_eq_ok h).imp_right fun ⟨hs, h⟩ => ⟨hs, ?_⟩
    obtain ⟨-, -, h⟩ := bind_eq_ok.mp h
    obtain ⟨c, hc, h⟩ := bind_eq_ok.mp h
    obtain ⟨b, -, h⟩ := bind_eq_ok.mp h
    rw [fst_eq_of_ok h]
    exact hc
  | float x =>
    rw [redactValue] at h
    refine (guard_eq_ok h).imp_right fun ⟨hs, h⟩ => ⟨hs, ?_⟩
    obtain ⟨-, -, h⟩ := bind_eq_ok.mp h
    obtain ⟨-, -, h⟩ := bind_eq_ok.mp h
    exact fst_eq_of_ok h
  | list xs =>
    rw [redactValue] at h
    refine (guard_eq_ok h).imp_right fun ⟨hs, h⟩ => ⟨hs, ?_⟩
    obtain ⟨-, -, h⟩ := bind_eq_ok.mp h
    obtain ⟨-, -, h⟩ := bind_eq_ok.mp h
    obtain ⟨r, hr, h⟩ := bind_eq_ok.mp h
    exact ⟨r.1, fst_eq_of_ok h, redactItems_forall₂ hr⟩
  | dict kvs =>
    rw [redactValue] at h
    refine (guard_eq_ok h).imp_right fun ⟨hs, h⟩ => ⟨hs, ?_⟩
    obtain ⟨-, -, h⟩ := bind_eq_ok.mp h
    obtain ⟨-, -, h⟩ := bind_eq_ok.mp h
    obtain ⟨r, hr, h⟩ := bind_eq_ok.mp h
    exact ⟨r.1, fst_eq_of_ok h, redactMembers_forall₂ hr⟩
  | null | bool | int =>
    simp only [redactValue] at h
    refine (guard_eq_ok h).imp_right fun ⟨hs, h⟩ => ⟨hs, ?_⟩
    obtain ⟨-, -, h⟩ := bind_eq_ok.mp h
    exact fst_eq_of_ok h

/-! ## Scalars and members -/

theorem captureString_cases {max : Int} {s : Str} {w : Value}
    (h : captureString P max s = .ok w) : w = .str s ∨ ∃ c : CaptureMetadata, w = c.asJson := by
  unfold captureString at h
  split_ifs at h
  · exact .inl (Except.ok.inj h).symm
  · obtain ⟨b, -, h⟩ := bind_eq_ok.mp h
    exact .inr ⟨_, (Except.ok.inj h).symm⟩

/-- Text that comes out as text is the redacted text. -/
theorem redactText_of_redacts {path : Path} {s t : Str}
    (h : Redacts P policy path (.str s) (.str t)) : redactText policy s = .ok t := by
  rcases redacts_shape h with ⟨-, h⟩ | ⟨-, t', ht', h⟩
  · cases h
  split_ifs at h
  · rw [ht', Value.str.inj h]
  · rcases captureString_cases h with h | ⟨c, h⟩
    · rw [ht', Value.str.inj h]
    · cases h

/-- A member of a redacted dict is the redaction of the member with that key. -/
theorem get?_of_redactsMembers {path : Path} {kvs out : Obj}
    (h : List.Forall₂ (RedactsMember P policy path) kvs out) {k : Str} {v : Value}
    (hv : Obj.get? kvs k = some v) :
    ∃ w, Obj.get? out k = some w ∧ Redacts P policy (path ++ [P.lower k]) v w := by
  induction h with
  | nil => simp at hv
  | @cons p q kvs out hpq _ ih =>
    rw [Obj.get?_cons] at hv
    rw [Obj.get?_cons, hpq.1]
    split at hv
    · rename_i hk
      rw [if_pos hk]
      obtain rfl := Option.some.inj hv
      exact ⟨q.2, rfl, hk ▸ hpq.2⟩
    · rename_i hk
      rw [if_neg hk]
      exact ih hv

theorem keys_of_redactsMembers {path : Path} {kvs out : Obj}
    (h : List.Forall₂ (RedactsMember P policy path) kvs out) : Obj.keys out = Obj.keys kvs := by
  induction h with
  | nil => rfl
  | cons hpq _ ih =>
    simp only [Obj.keys, List.map_cons] at ih ⊢
    rw [hpq.1, ih]

/-! ## The output is determined by value and path -/

theorem forall₂_unique {α β : Type} {R : α → β → Prop} {xs : List α} {ys zs : List β}
    (hR : ∀ x ∈ xs, ∀ {y z}, R x y → R x z → y = z) (h : List.Forall₂ R xs ys)
    (h' : List.Forall₂ R xs zs) : ys = zs := by
  induction h generalizing zs with
  | nil =>
    cases h'
    rfl
  | cons hxy _ ih =>
    cases h' with
    | cons hxz htail =>
      rw [hR _ (by simp) hxy hxz, ih (fun x hx => hR x (by simp [hx])) htail]

/-- Depth and budget do not change what comes out. -/
theorem redacts_unique {v : Value} {path : Path} {w w' : Value}
    (h : Redacts P policy path v w) (h' : Redacts P policy path v w') : w = w' := by
  induction v generalizing path w w' with
  | str s =>
    rcases redacts_shape h with ⟨hs, h⟩ | ⟨hs, t, ht, h⟩ <;>
      rcases redacts_shape h' with ⟨hs', h'⟩ | ⟨hs', t', ht', h'⟩
    · rw [h, h']
    · simp [hs] at hs'
    · simp [hs] at hs'
    obtain rfl := Except.ok.inj (ht.symm.trans ht')
    split_ifs at h h'
    · rw [h, h']
    · exact Except.ok.inj (h.symm.trans h')
  | bytes b =>
    rcases redacts_shape h with ⟨hs, h⟩ | ⟨hs, h⟩ <;>
      rcases redacts_shape h' with ⟨hs', h'⟩ | ⟨hs', h'⟩
    · rw [h, h']
    · simp [hs] at hs'
    · simp [hs] at hs'
    · exact Except.ok.inj (h.symm.trans h')
  | list xs ih =>
    rcases redacts_shape h with ⟨hs, h⟩ | ⟨hs, out, rfl, hout⟩ <;>
      rcases redacts_shape h' with ⟨hs', h'⟩ | ⟨hs', out', rfl, hout'⟩
    · rw [h, h']
    · simp [hs] at hs'
    · simp [hs] at hs'
    · rw [forall₂_unique (fun x hx _ _ => ih x hx) hout hout']
  | dict kvs ih =>
    rcases redacts_shape h with ⟨hs, h⟩ | ⟨hs, out, rfl, hout⟩ <;>
      rcases redacts_shape h' with ⟨hs', h'⟩ | ⟨hs', out', rfl, hout'⟩
    · rw [h, h']
    · simp [hs] at hs'
    · simp [hs] at hs'
    · refine congrArg Value.dict (forall₂_unique (fun p hp q r hq hr => ?_) hout hout')
      exact Prod.ext (hq.1.trans hr.1.symm) (ih p hp hq.2 hr.2)
  | _ =>
    rcases redacts_shape h with ⟨hs, h⟩ | ⟨hs, h⟩ <;>
      rcases redacts_shape h' with ⟨hs', h'⟩ | ⟨hs', h'⟩
    · rw [h, h']
    · simp [hs] at hs'
    · simp [hs] at hs'
    · exact h.trans h'.symm

/-! ## The output is a JSON value of almost the same height -/

theorem redactedMarker_wellFormed (reason : Str) : (redactedMarker reason).WellFormed := by
  refine (Value.all_dict _).mpr ⟨?_, ?_⟩
  · simp only [List.map_cons, List.map_nil]
    decide
  · simp [Value.All]

theorem asJson_wellFormed (c : CaptureMetadata) : c.asJson.WellFormed := by
  refine (Value.all_dict _).mpr ⟨?_, ?_⟩
  · simp only [List.map_cons, List.map_nil]
    decide
  · simp [Value.All]

theorem captureBytes_cases {max : Int} {b : Bytes} {w : Value}
    (h : captureBytes P max b = .ok w) : ∃ c : CaptureMetadata, w = c.asJson := by
  unfold captureBytes at h
  split_ifs at h
  exact ⟨_, (Except.ok.inj h).symm⟩

/-- What a scalar becomes: itself, other text, a marker or a capture object. -/
theorem redacts_wellFormed {v : Value} {path : Path} {w : Value} (hv : v.WellFormed)
    (h : Redacts P policy path v w) : w.WellFormed := by
  induction v generalizing path w with
  | str s =>
    rcases redacts_shape h with ⟨-, rfl⟩ | ⟨-, t, -, h⟩
    · exact redactedMarker_wellFormed _
    split_ifs at h
    · rw [h]
      trivial
    · rcases captureString_cases h with rfl | ⟨c, rfl⟩
      · trivial
      · exact asJson_wellFormed c
  | bytes b =>
    rcases redacts_shape h with ⟨-, rfl⟩ | ⟨-, h⟩
    · exact redactedMarker_wellFormed _
    · obtain ⟨c, rfl⟩ := captureBytes_cases h
      exact asJson_wellFormed c
  | list xs ih =>
    have hxs := (Value.all_list xs).mp hv
    rcases redacts_shape h with ⟨-, rfl⟩ | ⟨-, out, rfl, hout⟩
    · exact redactedMarker_wellFormed _
    refine (Value.all_list out).mpr fun y hy => ?_
    obtain ⟨x, hx, hxy⟩ := exists_of_forall₂ hout hy
    exact ih x hx (hxs x hx) hxy
  | dict kvs ih =>
    obtain ⟨hn, hkvs⟩ := (Value.all_dict kvs).mp hv
    rcases redacts_shape h with ⟨-, rfl⟩ | ⟨-, out, rfl, hout⟩
    · exact redactedMarker_wellFormed _
    refine (Value.all_dict out).mpr ⟨?_, fun q hq => ?_⟩
    · have hkeys := keys_of_redactsMembers hout
      simp only [Obj.keys] at hkeys
      rw [hkeys]
      exact hn
    · obtain ⟨p, hp, hpq⟩ := exists_of_forall₂ hout hq
      exact ih p hp (hkvs p hp) hpq.2
  | _ =>
    rcases redacts_shape h with ⟨-, rfl⟩ | ⟨-, rfl⟩
    · exact redactedMarker_wellFormed _
    · trivial

theorem redacts_height {v : Value} {path : Path} {w : Value} (h : Redacts P policy path v w) :
    w.height ≤ v.height + 1 := by
  have hmarker : ∀ r, (redactedMarker r).height = 1 := fun r => rfl
  have hcapture : ∀ c : CaptureMetadata, c.asJson.height = 1 := fun c => rfl
  induction v generalizing path w with
  | str s =>
    rcases redacts_shape h with ⟨-, rfl⟩ | ⟨-, t, -, h⟩
    · simp [hmarker]
    split_ifs at h
    · simp [h, Value.height]
    · rcases captureString_cases h with rfl | ⟨c, rfl⟩
      · simp [Value.height]
      · simp [hcapture]
  | bytes b =>
    rcases redacts_shape h with ⟨-, rfl⟩ | ⟨-, h⟩
    · simp [hmarker]
    · obtain ⟨c, rfl⟩ := captureBytes_cases h
      simp [hcapture]
  | list xs ih =>
    rcases redacts_shape h with ⟨-, rfl⟩ | ⟨-, out, rfl, hout⟩
    · simp [hmarker]
    refine Value.height_list_le.mpr fun y hy => ?_
    obtain ⟨x, hx, hxy⟩ := exists_of_forall₂ hout hy
    have := ih x hx hxy
    have := Value.heightList_le.mp le_rfl x hx
    simp only [Value.height]
    omega
  | dict kvs ih =>
    rcases redacts_shape h with ⟨-, rfl⟩ | ⟨-, out, rfl, hout⟩
    · simp [hmarker]
    refine Value.height_dict_le.mpr fun q hq => ?_
    obtain ⟨p, hp, hpq⟩ := exists_of_forall₂ hout hq
    have := ih p hp hpq.2
    have := Value.heightObj_le.mp le_rfl p hp
    simp only [Value.height]
    omega
  | _ =>
    rcases redacts_shape h with ⟨-, rfl⟩ | ⟨-, rfl⟩
    · simp [hmarker]
    · simp [Value.height]

end ActionLineage
