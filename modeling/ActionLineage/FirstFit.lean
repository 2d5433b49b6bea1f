import Mathlib

/-!
# Stages in any order

Each stage of a list is to have an item of its own. A greedy scan gives one stage after the other
the least item that satisfies it and that no earlier stage has (`Taken`), and never takes an item
back:

* `taken_iff`: what it finds is the eager assignment, in which no stage passes over an item that
  fits it and is free.
* `Taken.unique`: there is one such assignment at most.
* `Due` says which stage is compared with which item on the way.
-/

namespace FirstFit

variable {σ α : Type} [LinearOrder α] (sat : σ → α → Prop)

/-- Every stage has an item of its own that satisfies it. -/
structure Assigned (stages : List σ) (items : List α) : Prop where
  nodup : items.Nodup
  satisfies : List.Forall₂ sat stages items

/-- An item that satisfies a stage and comes before the item of the stage belongs to an earlier
stage. -/
def Eager (stages : List σ) (items : List α) : Prop :=
  ∀ before a after s, items = before ++ a :: after → stages[before.length]? = some s →
    ∀ b < a, sat s b → b ∈ before

/-- The stages take, one after the other, the least item that satisfies them and is not used. -/
inductive Taken : List α → List σ → List α → Prop
  | nil (used : List α) : Taken used [] []
  | cons {used : List α} {s : σ} {ss : List σ} {a : α} {as : List α} :
      sat s a → a ∉ used → (∀ b < a, sat s b → b ∈ used) → Taken (a :: used) ss as →
        Taken used (s :: ss) (a :: as)

/-- The scan comes to compare the stage `t` with the item `x`. -/
inductive Due : List α → List σ → σ → α → Prop
  | here {used : List α} {t : σ} {ss : List σ} {x : α} :
      x ∉ used → (∀ b < x, sat t b → b ∈ used) → Due used (t :: ss) t x
  | later {used : List α} {s t : σ} {ss : List σ} {a x : α} :
      sat s a → a ∉ used → (∀ b < a, sat s b → b ∈ used) → Due (a :: used) ss t x →
        Due used (s :: ss) t x

variable {sat} {s t : σ} {ss : List σ} {a b x : α} {used as bs : List α}

/-- The least free item of a stage is determined. -/
theorem least_unique (ha : sat s a) (hfree : a ∉ used) (hleast : ∀ c < a, sat s c → c ∈ used)
    (hb : sat s b) (hfree' : b ∉ used) (hleast' : ∀ c < b, sat s c → c ∈ used) : a = b := by
  rcases lt_trichotomy a b with hlt | heq | hlt
  · exact absurd (hleast' a hlt ha) hfree
  · exact heq
  · exact absurd (hleast b hlt hb) hfree'

theorem Taken.unique (h : Taken sat used ss as) (h' : Taken sat used ss bs) : as = bs := by
  induction h generalizing bs with
  | nil used =>
    cases h'
    rfl
  | cons ha hfree hleast _ ih =>
    cases h' with
    | cons hb hfree' hleast' htail =>
      obtain rfl := least_unique ha hfree hleast hb hfree' hleast'
      rw [ih htail]

/-- Once a stage has its item, the later ones are compared without it. -/
theorem due_cons_iff (ha : sat s a) (hfree : a ∉ used) (hleast : ∀ c < a, sat s c → c ∈ used) :
    Due sat used (s :: ss) t x ↔
      (t = s ∧ x ∉ used ∧ ∀ c < x, sat s c → c ∈ used) ∨ Due sat (a :: used) ss t x := by
  constructor
  · intro h
    cases h with
    | here hx hbefore => exact .inl ⟨rfl, hx, hbefore⟩
    | later hb hfree' hleast' hd =>
      obtain rfl := least_unique ha hfree hleast hb hfree' hleast'
      exact .inr hd
  · rintro (⟨rfl, hx, hbefore⟩ | hd)
    · exact .here hx hbefore
    · exact .later ha hfree hleast hd

/-! ## Eager assignments -/

/-- The assignment is eager, if the used items are taken. -/
def EagerFrom (sat : σ → α → Prop) (used : List α) (stages : List σ) (items : List α) : Prop :=
  ∀ before a after s, items = before ++ a :: after → stages[before.length]? = some s →
    ∀ b < a, sat s b → b ∈ used ∨ b ∈ before

theorem eagerFrom_cons :
    EagerFrom sat used (s :: ss) (a :: as) ↔
      (∀ b < a, sat s b → b ∈ used) ∧ EagerFrom sat (a :: used) ss as := by
  constructor
  · intro h
    refine ⟨fun b hb hsat => ?_, fun before c after t heq ht b hb hsat => ?_⟩
    · exact (h [] a as s rfl rfl b hb hsat).resolve_right List.not_mem_nil
    · have hmem := h (a :: before) c after t (by rw [heq]; rfl) (by simpa using ht) b hb hsat
      simp only [List.mem_cons] at hmem ⊢
      tauto
  · rintro ⟨hfirst, hrest⟩ before c after t heq ht b hb hsat
    cases before with
    | nil =>
      obtain ⟨rfl, rfl⟩ := List.cons.inj heq
      obtain rfl : s = t := by simpa using ht
      exact .inl (hfirst b hb hsat)
    | cons d before =>
      obtain ⟨rfl, rfl⟩ := List.cons.inj heq
      have hmem := hrest before c after t rfl (by simpa using ht) b hb hsat
      simp only [List.mem_cons] at hmem ⊢
      tauto

/-- The induction is on the stages; each of them adds its item to the used ones. -/
theorem takenFrom_iff : Taken sat used ss as ↔
    Assigned sat ss as ∧ as.Disjoint used ∧ EagerFrom sat used ss as := by
  induction ss generalizing used as with
  | nil =>
    constructor
    · intro h
      cases h
      exact ⟨⟨List.nodup_nil, .nil⟩, List.disjoint_nil_left used, fun before a after s h => by simp at h⟩
    · rintro ⟨⟨-, hsat⟩, -⟩
      cases hsat
      exact .nil used
  | cons s ss ih =>
    constructor
    · intro h
      cases h with
      | cons ha hfree hleast htail =>
        obtain ⟨⟨hnodup, hsat⟩, hdisjoint, heager⟩ := ih.mp htail
        obtain ⟨hnew, hdisjoint⟩ := List.disjoint_cons_right.mp hdisjoint
        exact ⟨⟨List.nodup_cons.mpr ⟨hnew, hnodup⟩, .cons ha hsat⟩,
          List.disjoint_cons_left.mpr ⟨hfree, hdisjoint⟩, eagerFrom_cons.mpr ⟨hleast, heager⟩⟩
    · rintro ⟨⟨hnodup, hsat⟩, hdisjoint, heager⟩
      cases hsat with
      | cons ha hsat =>
        obtain ⟨hnew, hnodup⟩ := List.nodup_cons.mp hnodup
        obtain ⟨hfree, hdisjoint⟩ := List.disjoint_cons_left.mp hdisjoint
        obtain ⟨hleast, heager⟩ := eagerFrom_cons.mp heager
        exact .cons ha hfree hleast
          (ih.mpr ⟨⟨hnodup, hsat⟩, List.disjoint_cons_right.mpr ⟨hnew, hdisjoint⟩, heager⟩)

theorem taken_iff : Taken sat [] ss as ↔ Assigned sat ss as ∧ Eager sat ss as := by
  rw [takenFrom_iff]
  have heager : EagerFrom sat [] ss as ↔ Eager sat ss as := by
    simp only [EagerFrom, Eager, List.not_mem_nil, false_or]
  rw [heager]
  exact ⟨fun h => ⟨h.1, h.2.2⟩, fun h => ⟨h.1, List.disjoint_nil_right as, h.2⟩⟩

end FirstFit
