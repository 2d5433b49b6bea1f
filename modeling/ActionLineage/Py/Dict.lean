import Mathlib

/-!
# Dicts under `d[k] = v` and `d.setdefault(k, v)`

A dict is its items in insertion order, one for each key. `Write` is one of the two updates, and a
run of writes is a list of them. An assignment stands against every later `setdefault`, so a key
that is assigned one value only ends with it (`get?_of_set`), and a key that is never assigned keeps
the first value it was offered.
-/

namespace Py

/-- A dict: its items in insertion order. -/
structure Dict (κ α : Type) where
  items : List (κ × α)
  nodup : (items.map Prod.fst).Nodup

namespace Dict

variable {κ α : Type} [DecidableEq κ]

def empty : Dict κ α := ⟨[], List.nodup_nil⟩

def get? (d : Dict κ α) (k : κ) : Option α := d.items.lookup k

theorem get?_eq_some {d : Dict κ α} {k : κ} {v : α} : d.get? k = some v ↔ (k, v) ∈ d.items := by
  obtain ⟨items, nodup⟩ := d
  show items.lookup k = some v ↔ _
  induction items with
  | nil => simp
  | cons item items ih =>
    obtain ⟨k', v'⟩ := item
    rw [List.map_cons, List.nodup_cons] at nodup
    rw [List.lookup_cons, List.mem_cons]
    by_cases hk : k = k'
    · subst hk
      have hno : (k, v) ∉ items := fun hmem => nodup.1 (List.mem_map.mpr ⟨_, hmem, rfl⟩)
      simp [hno, eq_comm]
    · simp [beq_false_of_ne hk, hk, ih nodup.2]

/-! ## Updates -/

/-- The items after `d[k] = v`. -/
def setItem (k : κ) (v : α) : List (κ × α) → List (κ × α)
  | [] => [(k, v)]
  | item :: items => if item.1 = k then (k, v) :: items else item :: setItem k v items

theorem keys_setItem (k : κ) (v : α) (items : List (κ × α)) :
    (setItem k v items).map Prod.fst =
      if k ∈ items.map Prod.fst then items.map Prod.fst else items.map Prod.fst ++ [k] := by
  induction items with
  | nil => rfl
  | cons item items ih =>
    unfold setItem
    by_cases h : item.1 = k
    · simp [h]
    · simp only [h, if_false, List.map_cons, ih, List.mem_cons, Ne.symm h, false_or]
      split <;> rfl

/-- `d[k] = v`. -/
def set (d : Dict κ α) (k : κ) (v : α) : Dict κ α where
  items := setItem k v d.items
  nodup := by
    rw [keys_setItem]
    split
    · exact d.nodup
    · rename_i hnew
      rw [List.nodup_append]
      refine ⟨d.nodup, List.nodup_singleton k, fun a ha b hb hab => ?_⟩
      rw [List.mem_singleton] at hb
      exact hnew (hb ▸ hab ▸ ha)

/-- `d.setdefault(k, v)`. -/
def setdefault (d : Dict κ α) (k : κ) (v : α) : Dict κ α :=
  if (d.get? k).isSome then d else d.set k v

theorem lookup_setItem (k : κ) (v : α) (items : List (κ × α)) (k' : κ) :
    (setItem k v items).lookup k' = if k' = k then some v else items.lookup k' := by
  induction items with
  | nil => by_cases h : k' = k <;> simp [setItem, h]
  | cons item items ih =>
    obtain ⟨first, w⟩ := item
    unfold setItem
    by_cases hfirst : first = k
    · subst hfirst
      by_cases h : k' = first
      · simp [h]
      · simp [List.lookup_cons, h, beq_false_of_ne h]
    · simp only [hfirst, if_false, List.lookup_cons, ih]
      by_cases hk : k' = first
      · subst hk
        simp [hfirst]
      · simp [beq_false_of_ne hk]

theorem get?_set (d : Dict κ α) (k : κ) (v : α) (k' : κ) :
    (d.set k v).get? k' = if k' = k then some v else d.get? k' :=
  lookup_setItem k v d.items k'

theorem get?_setdefault (d : Dict κ α) (k : κ) (v : α) (k' : κ) :
    (d.setdefault k v).get? k' = if k' = k then some ((d.get? k).getD v) else d.get? k' := by
  unfold setdefault
  cases hget : d.get? k with
  | none =>
    rw [if_neg (by simp), get?_set]
    rfl
  | some w =>
    rw [if_pos Option.isSome_some]
    split
    · rename_i heq
      rw [heq, hget]
      rfl
    · rfl

/-! ## Runs of writes -/

/-- One update of a dict. -/
inductive Write (κ α : Type)
  | set (key : κ) (value : α)
  | setdefault (key : κ) (value : α)

namespace Write

def key : Write κ α → κ
  | set k _ => k
  | setdefault k _ => k

def value : Write κ α → α
  | set _ v => v
  | setdefault _ v => v

end Write

def write (d : Dict κ α) : Write κ α → Dict κ α
  | .set k v => d.set k v
  | .setdefault k v => d.setdefault k v

def writeAll (d : Dict κ α) (writes : List (Write κ α)) : Dict κ α := writes.foldl write d

theorem get?_write_of_ne {d : Dict κ α} {w : Write κ α} {k : κ} (h : w.key ≠ k) :
    (d.write w).get? k = d.get? k := by
  cases w with
  | set k' v => exact (get?_set d k' v k).trans (if_neg (Ne.symm h))
  | setdefault k' v => exact (get?_setdefault d k' v k).trans (if_neg (Ne.symm h))

theorem isSome_get?_write (d : Dict κ α) (w : Write κ α) :
    ((d.write w).get? w.key).isSome = true := by
  cases w with
  | set k v =>
    rw [write, get?_set, Write.key, if_pos rfl]
    rfl
  | setdefault k v =>
    rw [write, get?_setdefault, Write.key, if_pos rfl]
    rfl

/-- What a key holds after a write was there before, or is the value written. -/
theorem get?_write {d : Dict κ α} {w : Write κ α} {k : κ} {v : α} (h : (d.write w).get? k = some v) :
    d.get? k = some v ∨ (w.key = k ∧ w.value = v) := by
  by_cases hk : w.key = k
  · subst hk
    cases w with
    | set k' v' =>
      rw [write, get?_set, Write.key, if_pos rfl] at h
      exact .inr ⟨rfl, Option.some.inj h⟩
    | setdefault k' v' =>
      rw [write, get?_setdefault, Write.key, if_pos rfl] at h
      cases hget : d.get? k' with
      | none =>
        rw [hget] at h
        exact .inr ⟨rfl, Option.some.inj h⟩
      | some v'' =>
        rw [hget] at h
        exact .inl (hget.trans h)
  · rw [get?_write_of_ne hk] at h
    exact .inl h

/-- A key keeps holding something. -/
theorem isSome_get?_writeAll {d : Dict κ α} {writes : List (Write κ α)} {k : κ}
    (h : (d.get? k).isSome = true ∨ ∃ w ∈ writes, w.key = k) :
    ((d.writeAll writes).get? k).isSome = true := by
  induction writes generalizing d with
  | nil => simpa [writeAll] using h
  | cons w writes ih =>
    refine ih (d := d.write w) ?_
    by_cases hk : w.key = k
    · exact .inl (hk ▸ isSome_get?_write d w)
    · rw [get?_write_of_ne hk]
      rcases h with h | ⟨w', hw', hkey⟩
      · exact .inl h
      · rcases List.mem_cons.mp hw' with rfl | hw'
        · exact absurd hkey hk
        · exact .inr ⟨w', hw', hkey⟩

/-- What a run of writes leaves under a key was there before, or was written. -/
theorem get?_writeAll {d : Dict κ α} {writes : List (Write κ α)} {k : κ} {v : α}
    (h : (d.writeAll writes).get? k = some v) :
    d.get? k = some v ∨ ∃ w ∈ writes, w.key = k ∧ w.value = v := by
  induction writes generalizing d with
  | nil => exact .inl h
  | cons w writes ih =>
    rcases ih (d := d.write w) h with hbefore | ⟨w', hw', hwritten⟩
    · rcases get?_write hbefore with hbefore | hwritten
      · exact .inl hbefore
      · exact .inr ⟨w, List.mem_cons_self, hwritten⟩
    · exact .inr ⟨w', List.mem_cons_of_mem _ hw', hwritten⟩

/-- Where no assignment of another value follows, a held value stays. -/
theorem get?_writeAll_of_held {d : Dict κ α} {writes : List (Write κ α)} {k : κ} {v : α}
    (hsets : ∀ v', Write.set k v' ∈ writes → v' = v) (h : d.get? k = some v) :
    (d.writeAll writes).get? k = some v := by
  induction writes generalizing d with
  | nil => exact h
  | cons w writes ih =>
    refine ih (d := d.write w) (fun v' hv' => hsets v' (List.mem_cons_of_mem _ hv')) ?_
    by_cases hk : w.key = k
    · subst hk
      cases w with
      | set k' v' =>
        rw [write, get?_set, Write.key, if_pos rfl, hsets v' List.mem_cons_self]
      | setdefault k' v' =>
        rw [Write.key] at h
        rw [write, get?_setdefault, Write.key, if_pos rfl, h]
        rfl
    · rw [get?_write_of_ne hk]
      exact h

/-- A key that is assigned one value only ends with it, whatever `setdefault` offers before and
after. -/
theorem get?_of_set {d : Dict κ α} {writes : List (Write κ α)} {k : κ} {v : α}
    (hset : Write.set k v ∈ writes) (hsets : ∀ v', Write.set k v' ∈ writes → v' = v) :
    (d.writeAll writes).get? k = some v := by
  obtain ⟨before, after, rfl⟩ := List.append_of_mem hset
  rw [writeAll, List.foldl_append, List.foldl_cons]
  refine get?_writeAll_of_held (fun v' hv' => hsets v' ?_) ?_
  · exact List.mem_append_right _ (List.mem_cons_of_mem _ hv')
  · rw [write, get?_set, if_pos rfl]

/-- A run of writes to distinct keys. -/
theorem get?_writeAll_of_nodup {d : Dict κ α} {writes : List (Write κ α)} {k : κ} {v : α}
    (hn : (writes.map Write.key).Nodup) (hset : Write.set k v ∈ writes) :
    (d.writeAll writes).get? k = some v := by
  refine get?_of_set hset fun v' hv' => ?_
  have hsame : Write.set k v' = Write.set k v := List.inj_on_of_nodup_map hn hv' hset rfl
  cases hsame
  rfl

/-! ## Values in the order of the keys -/

/-- `[d[k] for k in sorted(d)]`. -/
def sortedValues [LinearOrder κ] (d : Dict κ α) : List α :=
  (d.items.insertionSort fun a b => a.1 ≤ b.1).map Prod.snd

theorem mem_sortedValues [LinearOrder κ] {d : Dict κ α} {v : α} :
    v ∈ d.sortedValues ↔ ∃ k, d.get? k = some v := by
  simp only [sortedValues, List.mem_map, (List.perm_insertionSort _ _).mem_iff, Prod.exists,
    exists_eq_right, get?_eq_some]

/-- Values that determine their key are pairwise distinct. -/
theorem nodup_map_sortedValues [LinearOrder κ] {d : Dict κ α} {f : α → κ}
    (h : ∀ k v, d.get? k = some v → f v = k) : (d.sortedValues.map f).Nodup := by
  have hkeys : d.sortedValues.map f =
      (d.items.insertionSort fun a b => a.1 ≤ b.1).map Prod.fst := by
    rw [sortedValues, List.map_map]
    refine List.map_congr_left fun item hitem => ?_
    exact h item.1 item.2 (get?_eq_some.mpr ((List.perm_insertionSort _ _).mem_iff.mp hitem))
  rw [hkeys]
  exact ((List.perm_insertionSort _ d.items).map Prod.fst).nodup_iff.mpr d.nodup

end Dict

end Py
