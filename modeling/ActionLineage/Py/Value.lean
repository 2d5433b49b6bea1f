import ActionLineage.Py.Number

/-!
# JSON-shaped Python values

`Value` is what `json`, pydantic's JSON mode and the redaction boundary exchange: the JSON scalars,
`bytes`, and the two containers. A `dict` is its items in insertion order; Python never holds one
key twice, which is `WellFormed`.

* `Value.induct` is the induction every recursive function below is reasoned about with.
* `dictOf` is a dict built item by item (a comprehension, `dict(pairs)`).
* `sortKeys` is the key order `sort_keys=True` writes; it is idempotent and keeps lookups.
-/

namespace Py

inductive Value
  | null
  | bool (b : Bool)
  | int (i : Int)
  | float (x : Binary64)
  | str (s : Str)
  | bytes (b : Bytes)
  | list (xs : List Value)
  | dict (kvs : List (Str × Value))

/-- The items of a dict. -/
abbrev Obj := List (Str × Value)

namespace Value

/-- Induction over values; a container's hypothesis is member by member. -/
@[elab_as_elim, induction_eliminator]
theorem induct {motive : Value → Prop} (null : motive .null) (bool : ∀ b, motive (.bool b))
    (int : ∀ i, motive (.int i)) (float : ∀ x, motive (.float x)) (str : ∀ s, motive (.str s))
    (bytes : ∀ b, motive (.bytes b))
    (list : ∀ xs, (∀ x ∈ xs, motive x) → motive (.list xs))
    (dict : ∀ kvs, (∀ p ∈ kvs, motive p.2) → motive (.dict kvs)) (v : Value) : motive v := by
  refine @Value.rec motive (fun xs => ∀ x ∈ xs, motive x)
    (fun kvs => ∀ p ∈ kvs, motive p.2) (fun p => motive p.2)
    null bool int float str bytes list dict ?_ ?_ ?_ ?_ ?_ v
  · simp
  · intro x xs hx hxs y hy
    rcases List.mem_cons.mp hy with rfl | hy
    · exact hx
    · exact hxs y hy
  · simp
  · intro p kvs hp hkvs q hq
    rcases List.mem_cons.mp hq with rfl | hq
    · exact hp
    · exact hkvs q hq
  · intro k v hv
    exact hv

/-! ## Predicates on every part of a value -/

mutual

/-- `L` holds of every scalar inside the value and `K` of the keys of every dict. -/
def All (L : Value → Prop) (K : List Str → Prop) : Value → Prop
  | .list xs => AllList L K xs
  | .dict kvs => K (kvs.map Prod.fst) ∧ AllObj L K kvs
  | v => L v

def AllList (L : Value → Prop) (K : List Str → Prop) : List Value → Prop
  | [] => True
  | x :: xs => All L K x ∧ AllList L K xs

def AllObj (L : Value → Prop) (K : List Str → Prop) : Obj → Prop
  | [] => True
  | (_, v) :: kvs => All L K v ∧ AllObj L K kvs

end

variable {L : Value → Prop} {K : List Str → Prop}

theorem allList_iff (xs : List Value) : AllList L K xs ↔ ∀ x ∈ xs, x.All L K := by
  induction xs with
  | nil => simp [AllList]
  | cons x xs ih => simp [AllList, ih]

theorem allObj_iff (kvs : Obj) : AllObj L K kvs ↔ ∀ p ∈ kvs, p.2.All L K := by
  induction kvs with
  | nil => simp [AllObj]
  | cons p kvs ih => simp [AllObj, ih]

@[simp] theorem all_list (xs : List Value) : (Value.list xs).All L K ↔ ∀ x ∈ xs, x.All L K := by
  rw [All, allList_iff]

@[simp] theorem all_dict (kvs : Obj) :
    (Value.dict kvs).All L K ↔ K (kvs.map Prod.fst) ∧ ∀ p ∈ kvs, p.2.All L K := by
  rw [All, allObj_iff]

theorem All.mono {L' : Value → Prop} {K' : List Str → Prop} (hL : ∀ v, L v → L' v)
    (hK : ∀ ks, K ks → K' ks) {v : Value} (h : v.All L K) : v.All L' K' := by
  induction v with
  | list xs ih =>
    rw [all_list] at h ⊢
    exact fun x hx => ih x hx (h x hx)
  | dict kvs ih =>
    rw [all_dict] at h ⊢
    exact ⟨hK _ h.1, fun p hp => ih p hp (h.2 p hp)⟩
  | _ => exact hL _ h

/-- No dict holds one key twice. -/
def WellFormed (v : Value) : Prop := v.All (fun _ => True) List.Nodup

/-- Every dict key can be encoded. -/
def KeysSurrogateFree (v : Value) : Prop :=
  v.All (fun _ => True) fun keys => ∀ k ∈ keys, SurrogateFree k

/-- Every text and every dict key can be encoded. -/
def TextsSurrogateFree (v : Value) : Prop :=
  v.All (fun | .str s => SurrogateFree s | _ => True) fun keys => ∀ k ∈ keys, SurrogateFree k

theorem TextsSurrogateFree.keys {v : Value} (h : v.TextsSurrogateFree) : v.KeysSurrogateFree :=
  h.mono (fun _ _ => trivial) fun _ hk => hk

/-! ## Depth -/

mutual

/-- How many containers are nested in one another. -/
def height : Value → Nat
  | .list xs => heightList xs + 1
  | .dict kvs => heightObj kvs + 1
  | _ => 0

def heightList : List Value → Nat
  | [] => 0
  | x :: xs => max (height x) (heightList xs)

def heightObj : Obj → Nat
  | [] => 0
  | (_, v) :: kvs => max (height v) (heightObj kvs)

end

theorem heightList_le {xs : List Value} {n : Nat} :
    heightList xs ≤ n ↔ ∀ x ∈ xs, x.height ≤ n := by
  induction xs with
  | nil => simp [heightList]
  | cons x xs ih => simp [heightList, ih]

theorem heightObj_le {kvs : Obj} {n : Nat} : heightObj kvs ≤ n ↔ ∀ p ∈ kvs, p.2.height ≤ n := by
  induction kvs with
  | nil => simp [heightObj]
  | cons p kvs ih => simp [heightObj, ih]

theorem height_list_le {xs : List Value} {n : Nat} :
    (Value.list xs).height ≤ n + 1 ↔ ∀ x ∈ xs, x.height ≤ n := by
  rw [height, Nat.add_le_add_iff_right, heightList_le]

theorem height_dict_le {kvs : Obj} {n : Nat} :
    (Value.dict kvs).height ≤ n + 1 ↔ ∀ p ∈ kvs, p.2.height ≤ n := by
  rw [height, Nat.add_le_add_iff_right, heightObj_le]

end Value

/-! ## Dicts -/

namespace Obj

/-- `d.get(k)`. -/
def get? (kvs : Obj) (k : Str) : Option Value := kvs.lookup k

def keys (kvs : Obj) : List Str := kvs.map Prod.fst

/-- `d[k] = v`: an existing key keeps its place. -/
def set (kvs : Obj) (k : Str) (v : Value) : Obj :=
  if k ∈ kvs.keys then kvs.map fun p => if p.1 = k then (p.1, v) else p else kvs ++ [(k, v)]

@[simp] theorem get?_nil (k : Str) : get? [] k = none := rfl

theorem get?_cons (p : Str × Value) (kvs : Obj) (k : Str) :
    get? (p :: kvs) k = if p.1 = k then some p.2 else get? kvs k := by
  obtain ⟨k', v⟩ := p
  by_cases h : k' = k
  · subst h
    simp [get?]
  · have hne : (k == k') = false := by simpa using Ne.symm h
    simp [get?, List.lookup_cons, hne, h]

theorem get?_eq_some {kvs : Obj} (hn : kvs.keys.Nodup) {k : Str} {v : Value} :
    get? kvs k = some v ↔ (k, v) ∈ kvs := by
  induction kvs with
  | nil => simp
  | cons p kvs ih =>
    obtain ⟨k', v'⟩ := p
    simp only [keys, List.map_cons, List.nodup_cons] at hn
    rw [get?_cons, List.mem_cons]
    by_cases h : k' = k
    · subst h
      have hnot : (k', v) ∉ kvs := fun hm => hn.1 (List.mem_map.mpr ⟨_, hm, rfl⟩)
      simp only [if_true, Option.some.injEq, Prod.mk.injEq, true_and, hnot, or_false]
      exact eq_comm
    · rw [if_neg h, ih hn.2]
      have : (k, v) ≠ (k', v') := by
        rintro heq
        exact h (congrArg Prod.fst heq).symm
      simp [this]

theorem mem_of_get? {kvs : Obj} {k : Str} {v : Value} (h : get? kvs k = some v) :
    (k, v) ∈ kvs := by
  induction kvs with
  | nil => simp at h
  | cons p kvs ih =>
    rw [get?_cons] at h
    split at h
    · rename_i hk
      obtain ⟨k', v'⟩ := p
      simp_all
    · exact List.mem_cons_of_mem _ (ih h)

/-- Lookups do not depend on the order of the items. -/
theorem get?_perm {a b : Obj} (hp : a.Perm b) (hn : a.keys.Nodup) (k : Str) :
    get? a k = get? b k := by
  have hn' : b.keys.Nodup := (hp.map Prod.fst).nodup_iff.mp hn
  apply Option.ext
  intro v
  rw [get?_eq_some hn, get?_eq_some hn', hp.mem_iff]

theorem keys_set (kvs : Obj) (k : Str) (v : Value) :
    (kvs.set k v).keys = if k ∈ kvs.keys then kvs.keys else kvs.keys ++ [k] := by
  unfold set
  split
  · simp only [keys, List.map_map]
    apply List.map_congr_left
    intro p hp
    simp only [Function.comp]
    split <;> rfl
  · simp [keys]

theorem mem_set {kvs : Obj} {k : Str} {v : Value} {p : Str × Value} :
    p ∈ kvs.set k v ↔ p = (k, v) ∨ (p ∈ kvs ∧ p.1 ≠ k) := by
  unfold set
  split
  case isTrue h =>
    rw [List.mem_map]
    constructor
    · rintro ⟨q, hq, rfl⟩
      by_cases hk : q.1 = k
      · exact .inl (by rw [if_pos hk, hk])
      · exact .inr (by rw [if_neg hk]; exact ⟨hq, hk⟩)
    · rintro (rfl | ⟨hp, hk⟩)
      · obtain ⟨q, hq, hk⟩ := List.mem_map.mp h
        exact ⟨q, hq, by rw [if_pos hk, hk]⟩
      · exact ⟨p, hp, if_neg hk⟩
  case isFalse h =>
    have hne : ∀ q ∈ kvs, q.1 ≠ k := fun q hq hk => h (List.mem_map.mpr ⟨q, hq, hk⟩)
    rw [List.mem_append, List.mem_singleton]
    exact ⟨fun hp => hp.symm.imp_right fun hp => ⟨hp, hne p hp⟩, fun hp => hp.symm.imp_left And.left⟩

theorem isSome_get?_iff {kvs : Obj} {k : Str} : (get? kvs k).isSome = true ↔ k ∈ keys kvs := by
  induction kvs with
  | nil => simp [keys]
  | cons p kvs ih =>
    rw [get?_cons, keys, List.map_cons, List.mem_cons]
    by_cases h : p.1 = k
    · simp [h]
    · rw [if_neg h, ih]
      simp [keys, Ne.symm h]

/-- Replacing the values of a key changes no other. -/
theorem get?_replaced (kvs : Obj) (k : Str) (v : Value) (k' : Str) :
    get? (kvs.map fun p => if p.1 = k then (p.1, v) else p) k'
      = (get? kvs k').map fun w => if k' = k then v else w := by
  induction kvs with
  | nil => rfl
  | cons p kvs ih =>
    rw [List.map_cons, get?_cons, get?_cons, ih]
    by_cases hp : p.1 = k
    · rw [if_pos hp]
      split <;> simp_all
    · rw [if_neg hp]
      split <;> simp_all

theorem get?_set (kvs : Obj) (k : Str) (v : Value) (k' : Str) :
    get? (kvs.set k v) k' = if k' = k then some v else get? kvs k' := by
  unfold set
  split
  · rename_i hold
    rw [get?_replaced]
    by_cases hk : k' = k
    · obtain ⟨w, hw⟩ := Option.isSome_iff_exists.mp (isSome_get?_iff.mpr hold)
      rw [hk, hw, if_pos rfl, Option.map_some, if_pos rfl]
    · simp only [hk, if_false, Option.map_id']
  · rename_i hnew
    show (kvs ++ [(k, v)]).lookup k' = _
    rw [List.lookup_append]
    show (get? kvs k').or (get? [(k, v)] k') = _
    rw [get?_cons, get?_nil]
    by_cases hk : k' = k
    · have hnone := Option.not_isSome_iff_eq_none.mp (mt isSome_get?_iff.mp hnew)
      rw [hk, hnone, if_pos rfl, Option.none_or]
    · rw [if_neg hk, if_neg (Ne.symm hk), Option.or_none]
theorem length_set {kvs : Obj} {k : Str} (v : Value) (h : k ∈ kvs.keys) :
    (kvs.set k v).length = kvs.length := by
  unfold set
  rw [if_pos h, List.length_map]

end Obj

/-- The dict of a sequence of items: a repeated key takes the last value. -/
def dictOf (pairs : Obj) : Obj := pairs.foldl (fun d p => d.set p.1 p.2) []

theorem dictOf_keys_nodup (pairs : Obj) : (dictOf pairs).keys.Nodup := by
  induction pairs using List.reverseRecOn with
  | nil => simp [dictOf, Obj.keys]
  | append_singleton pairs p ih =>
    have hstep : dictOf (pairs ++ [p]) = (dictOf pairs).set p.1 p.2 := by simp [dictOf]
    rw [hstep, Obj.keys_set]
    split
    · exact ih
    · rename_i h
      exact List.nodup_append.mpr ⟨ih, by simp, fun a ha b hb he => h (by
        rw [List.mem_singleton.mp hb] at he
        exact he ▸ ha)⟩

theorem dictOf_eq_self {pairs : Obj} (hn : pairs.keys.Nodup) : dictOf pairs = pairs := by
  induction pairs using List.reverseRecOn with
  | nil => rfl
  | append_singleton pairs p ih =>
    have hstep : dictOf (pairs ++ [p]) = (dictOf pairs).set p.1 p.2 := by simp [dictOf]
    simp only [Obj.keys, List.map_append, List.map_cons, List.map_nil] at hn
    obtain ⟨hn, -, hdisj⟩ := List.nodup_append.mp hn
    have hnot : p.1 ∉ Obj.keys pairs := fun hm => hdisj _ hm _ (by simp) rfl
    rw [hstep, ih hn, Obj.set, if_neg hnot]

theorem mem_dictOf {pairs : Obj} {p : Str × Value} (h : p ∈ dictOf pairs) : p ∈ pairs := by
  induction pairs using List.reverseRecOn generalizing p with
  | nil => simp [dictOf] at h
  | append_singleton pairs q ih =>
    have hstep : dictOf (pairs ++ [q]) = (dictOf pairs).set q.1 q.2 := by simp [dictOf]
    rw [hstep, Obj.set] at h
    split at h
    · obtain ⟨r, hr, he⟩ := List.mem_map.mp h
      split at he
      · rename_i hk
        rw [← he, hk]
        simp
      · rw [← he]
        exact List.mem_append_left _ (ih hr)
    · rcases List.mem_append.mp h with h | h
      · exact List.mem_append_left _ (ih h)
      · exact List.mem_append_right _ h

theorem length_dictOf_le (pairs : Obj) : (dictOf pairs).length ≤ pairs.length := by
  induction pairs using List.reverseRecOn with
  | nil => simp [dictOf]
  | append_singleton pairs p ih =>
    have hstep : dictOf (pairs ++ [p]) = (dictOf pairs).set p.1 p.2 := by simp [dictOf]
    rw [hstep, Obj.set]
    split
    · simp only [List.length_map, List.length_append, List.length_singleton]
      omega
    · simpa using ih

/-! ## Key order -/

/-- Items in key order. -/
def sortPairs (kvs : Obj) : Obj := kvs.insertionSort fun a b => a.1 ≤ b.1

theorem sortPairs_perm (kvs : Obj) : (sortPairs kvs).Perm kvs := List.perm_insertionSort _ _

theorem mem_sortPairs {kvs : Obj} {p : Str × Value} : p ∈ sortPairs kvs ↔ p ∈ kvs :=
  (sortPairs_perm kvs).mem_iff

theorem sortPairs_idem (kvs : Obj) : sortPairs (sortPairs kvs) = sortPairs kvs := by
  have : Std.Total fun a b : Str × Value => a.1 ≤ b.1 := ⟨fun a b => le_total a.1 b.1⟩
  have : IsTrans (Str × Value) fun a b => a.1 ≤ b.1 := ⟨fun a b c hab hbc => le_trans hab hbc⟩
  exact List.Pairwise.insertionSort_eq (List.pairwise_insertionSort _ _)

theorem keys_sortPairs_nodup {kvs : Obj} : (sortPairs kvs).keys.Nodup ↔ kvs.keys.Nodup :=
  ((sortPairs_perm kvs).map Prod.fst).nodup_iff

theorem get?_sortPairs {kvs : Obj} (hn : kvs.keys.Nodup) (k : Str) :
    Obj.get? (sortPairs kvs) k = Obj.get? kvs k :=
  Obj.get?_perm (sortPairs_perm kvs) (keys_sortPairs_nodup.mpr hn) k

namespace Value

mutual

/-- The order `json.dumps(..., sort_keys=True)` writes, at every level. -/
def sortKeys : Value → Value
  | .list xs => .list (sortKeysList xs)
  | .dict kvs => .dict (sortPairs (sortKeysObj kvs))
  | v => v

def sortKeysList : List Value → List Value
  | [] => []
  | x :: xs => sortKeys x :: sortKeysList xs

def sortKeysObj : Obj → Obj
  | [] => []
  | (k, v) :: kvs => (k, sortKeys v) :: sortKeysObj kvs

end

theorem sortKeysList_eq (xs : List Value) : sortKeysList xs = xs.map sortKeys := by
  induction xs with
  | nil => rfl
  | cons x xs ih => simp [sortKeysList, ih]

theorem sortKeysObj_eq (kvs : Obj) : sortKeysObj kvs = kvs.map fun p => (p.1, p.2.sortKeys) := by
  induction kvs with
  | nil => rfl
  | cons p kvs ih => simp [sortKeysObj, ih]

theorem sortKeys_list (xs : List Value) : (Value.list xs).sortKeys = .list (xs.map sortKeys) := by
  rw [sortKeys, sortKeysList_eq]

theorem sortKeys_dict (kvs : Obj) :
    (Value.dict kvs).sortKeys = .dict (sortPairs (kvs.map fun p => (p.1, p.2.sortKeys))) := by
  rw [sortKeys, sortKeysObj_eq]

/-- Mapping the values of a dict that is in key order keeps it in key order. -/
theorem sortPairs_map (kvs : Obj) (f : Value → Value) :
    sortPairs (kvs.map fun p => (p.1, f p.2)) = (sortPairs kvs).map fun p => (p.1, f p.2) := by
  have hins : ∀ (p : Str × Value) (l : Obj),
      List.orderedInsert (fun a b => a.1 ≤ b.1) (p.1, f p.2) (l.map fun p => (p.1, f p.2))
        = (List.orderedInsert (fun a b => a.1 ≤ b.1) p l).map fun p => (p.1, f p.2) := by
    intro p l
    induction l with
    | nil => rfl
    | cons q l ih =>
      simp only [List.map_cons, List.orderedInsert_cons, ih]
      split <;> simp
  induction kvs with
  | nil => rfl
  | cons p kvs ih =>
    simp only [sortPairs, List.map_cons, List.insertionSort_cons] at ih ⊢
    rw [ih, hins]

theorem sortKeys_idem (v : Value) : v.sortKeys.sortKeys = v.sortKeys := by
  induction v with
  | list xs ih =>
    rw [sortKeys_list, sortKeys_list, List.map_map]
    congr 1
    exact List.map_congr_left fun x hx => ih x hx
  | dict kvs ih =>
    rw [sortKeys_dict, sortPairs_map, sortKeys_dict, sortPairs_map, sortPairs_map, sortPairs_idem,
      List.map_map]
    congr 1
    apply List.map_congr_left
    intro p hp
    simp only [Function.comp, ih p (mem_sortPairs.mp hp)]
  | _ => rfl

theorem keys_map_snd (kvs : Obj) (f : Value → Value) :
    (kvs.map fun p => (p.1, f p.2)).map Prod.fst = kvs.map Prod.fst := by
  simp

/-- Reordering the keys does not change which predicates on the parts hold. -/
theorem all_sortKeys (hK : ∀ {a b : List Str}, a.Perm b → K a → K b) {v : Value} :
    v.sortKeys.All L K ↔ v.All L K := by
  induction v with
  | list xs ih =>
    rw [sortKeys_list, all_list, all_list]
    simp only [List.mem_map, forall_exists_index, and_imp, forall_apply_eq_imp_iff₂]
    exact ⟨fun h x hx => (ih x hx).mp (h x hx), fun h x hx => (ih x hx).mpr (h x hx)⟩
  | dict kvs ih =>
    have hperm : ((sortPairs (kvs.map fun p => (p.1, p.2.sortKeys))).map Prod.fst).Perm
        (kvs.map Prod.fst) := by
      rw [← keys_map_snd kvs sortKeys]
      exact (sortPairs_perm _).map Prod.fst
    rw [sortKeys_dict, all_dict, all_dict]
    simp only [mem_sortPairs, List.mem_map, forall_exists_index, and_imp, forall_apply_eq_imp_iff₂]
    constructor
    · rintro ⟨hkeys, h⟩
      exact ⟨hK hperm hkeys, fun p hp => (ih p hp).mp (h p hp)⟩
    · rintro ⟨hkeys, h⟩
      exact ⟨hK hperm.symm hkeys, fun p hp => (ih p hp).mpr (h p hp)⟩
  | _ => exact Iff.rfl

theorem wellFormed_sortKeys {v : Value} : v.sortKeys.WellFormed ↔ v.WellFormed :=
  all_sortKeys fun hp hn => hp.nodup_iff.mp hn

theorem keysSurrogateFree_sortKeys {v : Value} :
    v.sortKeys.KeysSurrogateFree ↔ v.KeysSurrogateFree :=
  all_sortKeys fun hp hk k hm => hk k (hp.mem_iff.mpr hm)

theorem textsSurrogateFree_sortKeys {v : Value} :
    v.sortKeys.TextsSurrogateFree ↔ v.TextsSurrogateFree :=
  all_sortKeys fun hp hk k hm => hk k (hp.mem_iff.mpr hm)

/-- A lookup in sorted items finds the sorted member. -/
theorem get?_sortKeys {kvs : Obj} (hn : kvs.keys.Nodup) (k : Str) :
    Obj.get? (sortPairs (kvs.map fun p => (p.1, p.2.sortKeys))) k
      = (Obj.get? kvs k).map sortKeys := by
  have hkeys : (kvs.map fun p => (p.1, p.2.sortKeys)).map Prod.fst = kvs.map Prod.fst :=
    keys_map_snd kvs sortKeys
  rw [get?_sortPairs (by rw [Obj.keys, hkeys]; exact hn)]
  clear hn hkeys
  induction kvs with
  | nil => rfl
  | cons p kvs ih =>
    simp only [List.map_cons, Obj.get?_cons, ih]
    split <;> rfl

theorem height_sortKeys (v : Value) : v.sortKeys.height ≤ v.height := by
  induction v with
  | list xs ih =>
    rw [sortKeys_list, height, height, Nat.add_le_add_iff_right, heightList_le]
    intro y hy
    obtain ⟨x, hx, rfl⟩ := List.mem_map.mp hy
    exact (ih x hx).trans (heightList_le.mp le_rfl x hx)
  | dict kvs ih =>
    rw [sortKeys_dict, height, height, Nat.add_le_add_iff_right, heightObj_le]
    intro q hq
    obtain ⟨p, hp, rfl⟩ := List.mem_map.mp (mem_sortPairs.mp hq)
    exact (ih p hp).trans (heightObj_le.mp le_rfl p hp)
  | _ => exact le_rfl

end Value

end Py
