import ActionLineage.Platform

/-!
# The bounded JSON boundary — `validate_json_value`, `normalize_json`, `freeze_json_value`

`validate_json_value` and `normalize_json` make the same walk with the same limits and differ in
what they raise, so both are `walkJson` with their own errors. `Fits` is what a successful walk
says; it does not mention errors, which is how a value accepted by one of them is known to be
accepted by the other *at the same depth* (`walkJson_eq_ok`).

`freeze_json_value` rebuilds every dict, so what it returns never holds a key twice, whatever it
was given.
-/

namespace ActionLineage

open Py

def DEFAULT_JSON_MAX_DEPTH : Nat := 64
def DEFAULT_JSON_MAX_OBJECT_MEMBERS : Nat := 4096
def DEFAULT_JSON_MAX_ARRAY_LENGTH : Nat := 4096

structure JsonLimits where
  maxDepth : Nat
  maxObjectMembers : Nat
  maxArrayLength : Nat

def JsonLimits.default : JsonLimits :=
  ⟨DEFAULT_JSON_MAX_DEPTH, DEFAULT_JSON_MAX_OBJECT_MEMBERS, DEFAULT_JSON_MAX_ARRAY_LENGTH⟩

/-- What a walk raises. -/
structure WalkErrors where
  depth : PyError
  members : PyError
  items : PyError
  nonFinite : PyError
  unsupported : PyError

def require (b : Bool) (e : PyError) : Except PyError Unit := if b then .ok () else .error e

@[simp] theorem require_eq_ok {b : Bool} {e : PyError} : require b e = .ok () ↔ b = true := by
  cases b <;> simp [require]

section Walk

variable (lim : JsonLimits) (errors : WalkErrors)

mutual

def walkJson (depth : Nat) : Value → Except PyError Unit
  | .list xs => do
    require (decide (depth ≤ lim.maxDepth)) errors.depth
    require (decide (xs.length ≤ lim.maxArrayLength)) errors.items
    walkItems (depth + 1) xs
  | .dict kvs => do
    require (decide (depth ≤ lim.maxDepth)) errors.depth
    require (decide (kvs.length ≤ lim.maxObjectMembers)) errors.members
    walkMembers (depth + 1) kvs
  | .float x => do
    require (decide (depth ≤ lim.maxDepth)) errors.depth
    require x.isFinite errors.nonFinite
  | .bytes _ => do
    require (decide (depth ≤ lim.maxDepth)) errors.depth
    .error errors.unsupported
  | _ => require (decide (depth ≤ lim.maxDepth)) errors.depth

def walkItems (depth : Nat) : List Value → Except PyError Unit
  | [] => .ok ()
  | x :: xs => do
    walkJson depth x
    walkItems depth xs

def walkMembers (depth : Nat) : Obj → Except PyError Unit
  | [] => .ok ()
  | (_, v) :: kvs => do
    walkJson depth v
    walkMembers depth kvs

end

mutual

/-- The value is within the limits, read from `depth`. -/
def Fits (depth : Nat) : Value → Prop
  | .list xs => depth ≤ lim.maxDepth ∧ xs.length ≤ lim.maxArrayLength ∧ FitsItems (depth + 1) xs
  | .dict kvs =>
    depth ≤ lim.maxDepth ∧ kvs.length ≤ lim.maxObjectMembers ∧ FitsMembers (depth + 1) kvs
  | .float x => depth ≤ lim.maxDepth ∧ x.isFinite = true
  | .bytes _ => False
  | _ => depth ≤ lim.maxDepth

def FitsItems (depth : Nat) : List Value → Prop
  | [] => True
  | x :: xs => Fits depth x ∧ FitsItems depth xs

def FitsMembers (depth : Nat) : Obj → Prop
  | [] => True
  | (_, v) :: kvs => Fits depth v ∧ FitsMembers depth kvs

end

theorem fitsItems_iff {depth : Nat} {xs : List Value} :
    FitsItems lim depth xs ↔ ∀ x ∈ xs, Fits lim depth x := by
  induction xs with
  | nil => simp [FitsItems]
  | cons x xs ih => simp [FitsItems, ih]

theorem fitsMembers_iff {depth : Nat} {kvs : Obj} :
    FitsMembers lim depth kvs ↔ ∀ p ∈ kvs, Fits lim depth p.2 := by
  induction kvs with
  | nil => simp [FitsMembers]
  | cons p kvs ih => simp [FitsMembers, ih]

theorem fits_list {depth : Nat} {xs : List Value} : Fits lim depth (.list xs) ↔
    depth ≤ lim.maxDepth ∧ xs.length ≤ lim.maxArrayLength ∧ ∀ x ∈ xs, Fits lim (depth + 1) x := by
  rw [Fits, fitsItems_iff]

theorem fits_dict {depth : Nat} {kvs : Obj} : Fits lim depth (.dict kvs) ↔
    depth ≤ lim.maxDepth ∧ kvs.length ≤ lim.maxObjectMembers ∧
      ∀ p ∈ kvs, Fits lim (depth + 1) p.2 := by
  rw [Fits, fitsMembers_iff]

theorem bind_unit_eq_ok {x : Except PyError Unit} {f : Unit → Except PyError Unit} :
    (x >>= f) = .ok () ↔ x = .ok () ∧ f () = .ok () := by
  cases x <;> simp [bind, Except.bind]

theorem walkItems_eq_ok {depth : Nat} {xs : List Value} :
    walkItems lim errors depth xs = .ok () ↔ ∀ x ∈ xs, walkJson lim errors depth x = .ok () := by
  induction xs with
  | nil => simp [walkItems]
  | cons x xs ih => simp [walkItems, bind_unit_eq_ok, ih]

theorem walkMembers_eq_ok {depth : Nat} {kvs : Obj} :
    walkMembers lim errors depth kvs = .ok () ↔
      ∀ p ∈ kvs, walkJson lim errors depth p.2 = .ok () := by
  induction kvs with
  | nil => simp [walkMembers]
  | cons p kvs ih => simp [walkMembers, bind_unit_eq_ok, ih]

/-- Whether a walk succeeds does not depend on what it would raise. -/
theorem walkJson_eq_ok {depth : Nat} {v : Value} :
    walkJson lim errors depth v = .ok () ↔ Fits lim depth v := by
  induction v generalizing depth with
  | list xs ih =>
    rw [walkJson, bind_unit_eq_ok, bind_unit_eq_ok, require_eq_ok, require_eq_ok,
      walkItems_eq_ok, fits_list, decide_eq_true_eq, decide_eq_true_eq]
    exact and_congr_right' (and_congr_right' (forall₂_congr fun x hx => ih x hx))
  | dict kvs ih =>
    rw [walkJson, bind_unit_eq_ok, bind_unit_eq_ok, require_eq_ok, require_eq_ok,
      walkMembers_eq_ok, fits_dict, decide_eq_true_eq, decide_eq_true_eq]
    exact and_congr_right' (and_congr_right' (forall₂_congr fun p hp => ih p hp))
  | float x => simp [walkJson, Fits, bind_unit_eq_ok]
  | bytes b => simp [walkJson, Fits, bind_unit_eq_ok]
  | _ => simp [walkJson, Fits]

/-! ## What fits -/

/-- Moving a value up leaves it within the limits. -/
theorem Fits.mono {d d' : Nat} (hd : d ≤ d') {v : Value} (h : Fits lim d' v) : Fits lim d v := by
  induction v generalizing d d' with
  | list xs ih =>
    rw [fits_list] at h ⊢
    exact ⟨hd.trans h.1, h.2.1, fun x hx => ih x hx (Nat.succ_le_succ hd) (h.2.2 x hx)⟩
  | dict kvs ih =>
    rw [fits_dict] at h ⊢
    exact ⟨hd.trans h.1, h.2.1, fun p hp => ih p hp (Nat.succ_le_succ hd) (h.2.2 p hp)⟩
  | float x => exact ⟨hd.trans h.1, h.2⟩
  | bytes b => exact h
  | _ => exact hd.trans h

theorem Fits.depth_le {d : Nat} {v : Value} (h : Fits lim d v) : d ≤ lim.maxDepth := by
  cases v with
  | list xs => exact h.1
  | dict kvs => exact h.1
  | float x => exact h.1
  | bytes b => exact h.elim
  | _ => exact h

theorem Fits.height_le {d : Nat} {v : Value} (h : Fits lim d v) :
    d + v.height ≤ lim.maxDepth + 1 := by
  induction v generalizing d with
  | list xs ih =>
    rw [fits_list] at h
    obtain ⟨n, hn⟩ : ∃ n, lim.maxDepth = d + n := ⟨lim.maxDepth - d, by omega⟩
    have hle : (Value.list xs).height ≤ n + 1 := Value.height_list_le.mpr fun x hx => by
      have := ih x hx (h.2.2 x hx)
      omega
    omega
  | dict kvs ih =>
    rw [fits_dict] at h
    obtain ⟨n, hn⟩ : ∃ n, lim.maxDepth = d + n := ⟨lim.maxDepth - d, by omega⟩
    have hle : (Value.dict kvs).height ≤ n + 1 := Value.height_dict_le.mpr fun p hp => by
      have := ih p hp (h.2.2 p hp)
      omega
    omega
  | _ =>
    have := h.depth_le
    simp only [Value.height]
    omega

theorem fits_sortKeys {d : Nat} {v : Value} : Fits lim d v.sortKeys ↔ Fits lim d v := by
  induction v generalizing d with
  | list xs ih =>
    rw [Value.sortKeys_list, fits_list, fits_list, List.length_map]
    simp only [List.mem_map, forall_exists_index, and_imp, forall_apply_eq_imp_iff₂]
    exact and_congr_right' (and_congr_right' (forall₂_congr fun x hx => ih x hx))
  | dict kvs ih =>
    rw [Value.sortKeys_dict, fits_dict, fits_dict, (sortPairs_perm _).length_eq, List.length_map]
    simp only [mem_sortPairs, List.mem_map, forall_exists_index, and_imp, forall_apply_eq_imp_iff₂]
    exact and_congr_right' (and_congr_right' (forall₂_congr fun p hp => ih p hp))
  | _ => exact Iff.rfl

/-- What fits in the place of a member fits. -/
theorem fits_set {d : Nat} {kvs : Obj} (hfits : Fits lim d (.dict kvs)) (k : Str)
    (v : Value) : Fits lim d (.dict (kvs.set k v)) ↔
      (kvs.set k v).length ≤ lim.maxObjectMembers ∧ Fits lim (d + 1) v := by
  rw [fits_dict] at hfits ⊢
  obtain ⟨hdepth, -, hmembers⟩ := hfits
  simp only [hdepth, true_and, Obj.mem_set]
  refine and_congr_right' ⟨fun h => h (k, v) (.inl rfl), ?_⟩
  rintro hv p (rfl | ⟨hp, -⟩)
  · exact hv
  · exact hmembers p hp

end Walk

/-! ## The code's two walks -/

def validateErrors (lim : JsonLimits) : WalkErrors where
  depth := .valueError ("payload JSON depth exceeds " ++ toString lim.maxDepth)
  members :=
    .valueError ("payload JSON object exceeds " ++ toString lim.maxObjectMembers ++ " members")
  items := .valueError ("payload JSON array exceeds " ++ toString lim.maxArrayLength ++ " items")
  nonFinite := .valueError "payload contains non-finite JSON number"
  unsupported := .valueError "payload contains unsupported JSON value type: bytes"

def validateJsonValue (lim : JsonLimits) (depth : Nat) (v : Value) : Except PyError Unit :=
  walkJson lim (validateErrors lim) depth v

def normalizeErrors (lim : JsonLimits) : WalkErrors where
  depth := .typeError ("JSON depth exceeds " ++ toString lim.maxDepth)
  members := .typeError ("JSON object exceeds " ++ toString lim.maxObjectMembers ++ " members")
  items := .typeError ("JSON array exceeds " ++ toString lim.maxArrayLength ++ " items")
  nonFinite := .typeError "JSON numbers must be finite"
  unsupported := .typeError "unsupported JSON value type: bytes"

/-- On JSON values the normalized value is the value. -/
def normalizeJson (lim : JsonLimits) (depth : Nat) (v : Value) : Except PyError Value := do
  walkJson lim (normalizeErrors lim) depth v
  .ok v

theorem normalizeJson_eq_ok {lim : JsonLimits} {depth : Nat} {v w : Value} :
    normalizeJson lim depth v = .ok w ↔ Fits lim depth v ∧ w = v := by
  rw [← walkJson_eq_ok lim (normalizeErrors lim), normalizeJson]
  cases walkJson lim (normalizeErrors lim) depth v <;> simp [bind, Except.bind, eq_comm]

/-! ## Freezing -/

mutual

/-- Frozen containers hold the same JSON; each dict is rebuilt by a comprehension. Only values
that passed `validate_json_value` are frozen, so `bytes` does not reach it. -/
def freezeJsonValue : Value → Value
  | .list xs => .list (freezeItems xs)
  | .dict kvs => .dict (dictOf (freezeMembers kvs))
  | v => v

def freezeItems : List Value → List Value
  | [] => []
  | x :: xs => freezeJsonValue x :: freezeItems xs

def freezeMembers : Obj → Obj
  | [] => []
  | (k, v) :: kvs => (k, freezeJsonValue v) :: freezeMembers kvs

end

theorem freezeItems_eq (xs : List Value) : freezeItems xs = xs.map freezeJsonValue := by
  induction xs with
  | nil => rfl
  | cons x xs ih => simp [freezeItems, ih]

theorem freezeMembers_eq (kvs : Obj) :
    freezeMembers kvs = kvs.map fun p => (p.1, freezeJsonValue p.2) := by
  induction kvs with
  | nil => rfl
  | cons p kvs ih => simp [freezeMembers, ih]

theorem freezeJsonValue_wellFormed (v : Value) : (freezeJsonValue v).WellFormed := by
  induction v with
  | list xs ih =>
    rw [freezeJsonValue, freezeItems_eq, Value.WellFormed, Value.all_list]
    intro y hy
    obtain ⟨x, hx, rfl⟩ := List.mem_map.mp hy
    exact ih x hx
  | dict kvs ih =>
    rw [freezeJsonValue, freezeMembers_eq, Value.WellFormed, Value.all_dict]
    refine ⟨dictOf_keys_nodup _, fun q hq => ?_⟩
    obtain ⟨p, hp, rfl⟩ := List.mem_map.mp (mem_dictOf hq)
    exact ih p hp
  | _ => trivial

theorem freezeJsonValue_eq_self {v : Value} (h : v.WellFormed) : freezeJsonValue v = v := by
  induction v with
  | list xs ih =>
    have hxs := (Value.all_list xs).mp h
    rw [freezeJsonValue, freezeItems_eq]
    congr 1
    calc xs.map freezeJsonValue = xs.map id := List.map_congr_left fun x hx => ih x hx (hxs x hx)
      _ = xs := List.map_id xs
  | dict kvs ih =>
    obtain ⟨hn, hkvs⟩ := (Value.all_dict kvs).mp h
    have hmap : (kvs.map fun p => (p.1, freezeJsonValue p.2)) = kvs := by
      calc (kvs.map fun p => (p.1, freezeJsonValue p.2)) = kvs.map id :=
            List.map_congr_left fun p hp => by rw [ih p hp (hkvs p hp)]; rfl
        _ = kvs := List.map_id kvs
    rw [freezeJsonValue, freezeMembers_eq, hmap, dictOf_eq_self hn]
  | _ => rfl

theorem fits_freezeJsonValue {lim : JsonLimits} {d : Nat} {v : Value} (h : Fits lim d v) :
    Fits lim d (freezeJsonValue v) := by
  induction v generalizing d with
  | list xs ih =>
    rw [fits_list] at h
    rw [freezeJsonValue, freezeItems_eq, fits_list, List.length_map]
    refine ⟨h.1, h.2.1, fun y hy => ?_⟩
    obtain ⟨x, hx, rfl⟩ := List.mem_map.mp hy
    exact ih x hx (h.2.2 x hx)
  | dict kvs ih =>
    rw [fits_dict] at h
    rw [freezeJsonValue, freezeMembers_eq, fits_dict]
    refine ⟨h.1, (length_dictOf_le _).trans (by simpa using h.2.1), fun q hq => ?_⟩
    obtain ⟨p, hp, rfl⟩ := List.mem_map.mp (mem_dictOf hq)
    exact ih p hp (h.2.2 p hp)
  | _ => exact h

end ActionLineage
