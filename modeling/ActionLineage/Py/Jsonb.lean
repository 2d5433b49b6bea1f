import ActionLineage.Py.Compare
import ActionLineage.Py.JsonLoaded
import ActionLineage.Py.Reordering

/-!
# Documents in a `JSONB` column

A server that stores a document returns it with the members of its objects in an order of its own
and its numbers spelled anew, so that a float may come back as an integer, and a negative zero
without its sign. A document comes back as the same data exactly when each of its floats does
(`sortKeys_returned_eq_iff`). `numeric` is a server that writes numbers without exponents.
-/

namespace Py

/-- Digits with a sign, and the power of ten behind them. -/
def NumText.decimal (t : NumText) : Int × Int :=
  let digits : Int := readNat (t.ip ++ t.frac)
  (if t.neg then -digits else digits, NumText.expValue t.exp - t.frac.length)

/-- The decimal number that is written for a value. -/
def Value.decimal : Value → Option (Int × Int)
  | .int i => some (i, 0)
  | .float (.finite neg bits) => some (floatText neg bits).decimal
  | _ => none

/-- Two values are written as the same number. -/
def SameNumber (v w : Value) : Prop :=
  ∃ m p n q, v.decimal = some (m, p) ∧ w.decimal = some (n, q) ∧
    m * 10 ^ p.toNat * 10 ^ (-q).toNat = n * 10 ^ q.toNat * 10 ^ (-p).toNat

/-- How a server returns what it stores; integers are returned as they are. -/
structure Jsonb where
  /-- What a float comes back as. -/
  number : Binary64 → Value
  number_cases : ∀ x, (∃ i, number x = .int i) ∨ ∃ y, number x = .float y
  number_eq : ∀ neg bits, SameNumber (number (.finite neg bits)) (.float (.finite neg bits))
  order : Obj → Obj
  order_perm : ∀ kvs, (order kvs).Perm kvs

namespace Jsonb

variable (J : Jsonb)

mutual

/-- The document that comes back. -/
def returned : Value → Value
  | .float x => J.number x
  | .list xs => .list (returnedItems xs)
  | .dict kvs => .dict (J.order (returnedMembers kvs))
  | v => v

def returnedItems : List Value → List Value
  | [] => []
  | x :: xs => returned x :: returnedItems xs

def returnedMembers : Obj → Obj
  | [] => []
  | (k, v) :: kvs => (k, returned v) :: returnedMembers kvs

end

/-- Every float inside the value comes back as it is. -/
def Keeps (v : Value) : Prop :=
  v.All (fun x => ∀ y, x = .float y → J.number y = .float y) fun _ => True

variable {J}

theorem returned_list (xs : List Value) : J.returned (.list xs) = .list (xs.map J.returned) := by
  have hitems : J.returnedItems xs = xs.map J.returned := by
    induction xs with
    | nil => rfl
    | cons x xs ih => rw [returnedItems, ih, List.map_cons]
  rw [returned, hitems]

theorem returned_dict (kvs : Obj) :
    J.returned (.dict kvs) = .dict (J.order (kvs.map fun p => (p.1, J.returned p.2))) := by
  have hmembers : J.returnedMembers kvs = kvs.map fun p => (p.1, J.returned p.2) := by
    induction kvs with
    | nil => rfl
    | cons p kvs ih => rw [returnedMembers, ih, List.map_cons]
  rw [returned, hmembers]

theorem keys_returned (kvs : Obj) :
    (Obj.keys (J.order (kvs.map fun p => (p.1, J.returned p.2)))).Perm (Obj.keys kvs) := by
  have h := (J.order_perm (kvs.map fun p => (p.1, J.returned p.2))).map Prod.fst
  rwa [Value.keys_map_snd] at h

theorem wellFormed_returned {v : Value} (h : v.WellFormed) : (J.returned v).WellFormed := by
  induction v with
  | float x =>
    unfold returned
    rcases J.number_cases x with ⟨i, hi⟩ | ⟨y, hy⟩
    · rw [hi]
      trivial
    · rw [hy]
      trivial
  | list xs ih =>
    rw [returned_list]
    refine (Value.all_list _).mpr fun y hy => ?_
    obtain ⟨x, hx, rfl⟩ := List.mem_map.mp hy
    exact ih x hx ((Value.all_list xs).mp h x hx)
  | dict kvs ih =>
    obtain ⟨hn, hmembers⟩ := (Value.all_dict kvs).mp h
    rw [returned_dict]
    refine (Value.all_dict _).mpr ⟨(keys_returned kvs).nodup_iff.mpr hn, fun p hp => ?_⟩
    obtain ⟨q, hq, rfl⟩ := List.mem_map.mp ((J.order_perm _).mem_iff.mp hp)
    exact ih q hq (hmembers q hq)
  | _ => exact h

/-- The data that come back are the data that were stored when every float is kept. -/
theorem sortKeys_returned_eq_iff {v : Value} (h : v.WellFormed) :
    (J.returned v).sortKeys = v.sortKeys ↔ J.Keeps v := by
  induction v with
  | float x =>
    have hflat : (J.number x).sortKeys = J.number x := by
      rcases J.number_cases x with ⟨i, hi⟩ | ⟨y, hy⟩
      · rw [hi]
        rfl
      · rw [hy]
        rfl
    unfold returned
    rw [hflat]
    exact ⟨fun heq y hy => Value.float.inj hy ▸ heq, fun hkeeps => hkeeps x rfl⟩
  | list xs ih =>
    rw [returned_list, Value.sortKeys_list, Value.sortKeys_list, List.map_map, Value.list.injEq,
      List.map_inj_left, Keeps, Value.all_list]
    exact forall₂_congr fun x hx => ih x hx ((Value.all_list xs).mp h x hx)
  | dict kvs ih =>
    obtain ⟨hn, hmembers⟩ := (Value.all_dict kvs).mp h
    -- the order of the server does not matter: the members are sorted by distinct keys
    have horder : sortPairs ((J.order (kvs.map fun p => (p.1, J.returned p.2))).map
          fun p => (p.1, p.2.sortKeys))
        = sortPairs (kvs.map fun p => (p.1, (J.returned p.2).sortKeys)) := by
      have hperm := (J.order_perm (kvs.map fun p => (p.1, J.returned p.2))).map
        fun p => (p.1, p.2.sortKeys)
      rw [List.map_map] at hperm
      refine @insertionSort_eq_of_perm _ _ _ Prod.fst _ _ hperm ?_
      rw [Value.keys_map_snd]
      exact (keys_returned kvs).nodup_iff.mpr hn
    rw [returned_dict, Value.sortKeys_dict, Value.sortKeys_dict, horder, Value.dict.injEq,
      Value.sortPairs_map kvs fun v => (J.returned v).sortKeys, Value.sortPairs_map,
      List.map_inj_left, Keeps, Value.all_dict]
    constructor
    · intro heq
      refine ⟨trivial, fun p hp => ?_⟩
      have hp' := (Prod.mk.inj (heq p (mem_sortPairs.mpr hp))).2
      exact (ih p hp (hmembers p hp)).mp hp'
    · intro hkeeps p hp
      have hp' := mem_sortPairs.mp hp
      exact congrArg (Prod.mk p.1) ((ih p hp' (hmembers p hp')).mpr (hkeeps.2 p hp'))
  | _ => exact ⟨fun _ => fun _ h => (nomatch h), fun _ => rfl⟩

/-- What is written of the returned document is what is written of the stored one, where every float
is kept. -/
theorem dumpBytes_returned_eq_iff {kvs : Obj} (h : (Value.dict kvs).WellFormed) {doc : Bytes}
    (hdoc : dumpBytes (.dict kvs) = .ok doc) :
    dumpBytes (J.returned (.dict kvs)) = .ok doc ↔ J.Keeps (.dict kvs) := by
  rw [← sortKeys_returned_eq_iff h]
  constructor
  · intro hreturned
    have hwf : (J.returned (.dict kvs)).WellFormed := wellFormed_returned h
    rw [returned_dict] at hreturned hwf ⊢
    exact sortKeys_eq_of_dumpBytes hwf h hreturned hdoc
  · intro hsame
    rw [← dumpBytes_sortKeys, hsame, dumpBytes_sortKeys, hdoc]

/-! ## Numbers without exponents -/

/-- A float whose text has no digits behind the point once the exponent is written out comes back as
an integer, and zero comes back without a sign. -/
def numericNumber (x : Binary64) : Value :=
  match x with
  | .finite neg bits =>
    let (digits, power) := (floatText neg bits).decimal
    if 0 ≤ power then .int (digits * 10 ^ power.toNat)
    else if bits.val = 0 then .float (.finite false bits)
    else .float (.finite neg bits)
  | x => .float x

/-- A server that keeps numbers as decimals, and members as they are. -/
def numeric : Jsonb where
  number := numericNumber
  number_cases := by
    intro x
    unfold numericNumber
    split
    · dsimp only
      split_ifs
      · exact .inl ⟨_, rfl⟩
      · exact .inr ⟨_, rfl⟩
      · exact .inr ⟨_, rfl⟩
    · exact .inr ⟨_, rfl⟩
  number_eq := by
    intro neg bits
    unfold numericNumber
    dsimp only
    split_ifs with hpower hzero
    · refine ⟨_, 0, (floatText neg bits).decimal.1, (floatText neg bits).decimal.2, rfl, rfl, ?_⟩
      rw [Int.toNat_of_nonpos (neg_nonpos.mpr hpower), neg_zero, Int.toNat_zero, pow_zero, mul_one,
        mul_one]
    · -- both are written as `0.0`
      refine ⟨_, _, _, _, rfl, rfl, ?_⟩
      unfold floatText
      rw [if_pos hzero, if_pos hzero]
      cases neg <;> rfl
    · exact ⟨_, _, _, _, rfl, rfl, rfl⟩
  order := id
  order_perm := List.Perm.refl

/-- It keeps the floats that are written with digits behind the point, but for the negative zero. -/
theorem numeric_keeps_float {neg : Bool} {bits : Fin infBits} :
    numeric.Keeps (.float (.finite neg bits)) ↔
      (floatText neg bits).decimal.2 < 0 ∧ ¬ (neg = true ∧ bits.val = 0) := by
  have hkeeps : numeric.Keeps (.float (.finite neg bits)) ↔
      numericNumber (.finite neg bits) = .float (.finite neg bits) := by
    constructor
    · exact fun h => h _ rfl
    · intro h y hy
      cases hy
      exact h
  rw [hkeeps]
  unfold numericNumber
  dsimp only
  split_ifs with hpower hzero
  · simp [hpower]
  · cases neg <;> simp [hzero, not_le.mp hpower]
  · simp [hzero, not_le.mp hpower]

end Jsonb

end Py
