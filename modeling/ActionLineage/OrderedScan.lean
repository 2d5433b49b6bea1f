import Mathlib

/-!
# Stages in order in a stream

A list of stages is sought in a stream of items, each stage at a later item than the one before.
`Contains` says that it can be found; a *block* is a stretch that contains the stages while no
shorter start of it does. A scan that always takes the first item for the stage that is due, and
starts again behind the last one, walks from block to block:

* `contains_cons_of_sat` and `contains_cons_of_not` are why taking the first item loses nothing.
* `Reaches` is what is left of a stream after some of its blocks; blocks are unique, so for a stream
  whose first block is known it has a simple inversion (`reaches_append_iff`).
* `DueAt` says which stage is compared with which item before the first block is complete.
-/

namespace OrderedScan

variable {σ α : Type} (sat : σ → α → Prop)

/-- The stages occur in the list, in order. -/
abbrev Contains (stages : List σ) (xs : List α) : Prop := List.SublistForall₂ sat stages xs

/-- A stretch that contains the stages, though no proper start of it does. -/
structure IsBlock (stages : List σ) (seg : List α) : Prop where
  contains : Contains sat stages seg
  minimal : ∀ p, p <+: seg → Contains sat stages p → p = seg

/-- The second list is left of the first after some of its blocks. -/
inductive Reaches (stages : List σ) : List α → List α → Prop
  | refl (xs : List α) : Reaches stages xs xs
  | block {seg rest ys : List α} :
      IsBlock sat stages seg → Reaches stages rest ys → Reaches stages (seg ++ rest) ys

/-- At the item `x` exactly the stages before `s` have been found. -/
def DueAt (stages : List σ) (xs : List α) (s : σ) (x : α) : Prop :=
  ∃ seg post done later, xs = seg ++ x :: post ∧ stages = done ++ s :: later ∧
    Contains sat done seg ∧ ¬ Contains sat (done ++ [s]) seg

/-- The first item of the stretch with a property, and its last item. -/
structure Bounds (p : α → Prop) (seg : List α) (a z : α) : Prop where
  first : ∃ skip tail, seg = skip ++ a :: tail ∧ p a ∧ ∀ y ∈ skip, ¬ p y
  last : seg.getLast? = some z

variable {sat} {s t : σ} {ss : List σ} {x y : α} {xs ys seg rest : List α}

/-! ## Containment -/

theorem not_contains_nil : ¬ Contains sat (s :: ss) [] := by
  intro h
  cases h

theorem Contains.tail (h : Contains sat (s :: ss) xs) : Contains sat ss xs := by
  induction xs with
  | nil => exact absurd h not_contains_nil
  | cons x xs ih =>
    cases h with
    | cons _ h => exact .cons_right h
    | cons_right h => exact .cons_right (ih h)

/-- An item that satisfies the first stage may as well be used for it. -/
theorem contains_cons_of_sat (h : sat s x) :
    Contains sat (s :: ss) (x :: xs) ↔ Contains sat ss xs := by
  constructor
  · intro hc
    cases hc with
    | cons _ hc => exact hc
    | cons_right hc => exact Contains.tail hc
  · exact .cons h

theorem contains_cons_of_not (h : ¬ sat s x) :
    Contains sat (s :: ss) (x :: xs) ↔ Contains sat (s :: ss) xs := by
  constructor
  · intro hc
    cases hc with
    | cons hx _ => exact absurd hx h
    | cons_right hc => exact hc
  · exact .cons_right

theorem Contains.append (h : Contains sat ss xs) (ys : List α) : Contains sat ss (xs ++ ys) := by
  obtain ⟨l, hl, hsub⟩ := List.sublistForall₂_iff.mp h
  exact List.sublistForall₂_iff.mpr ⟨l, hl, hsub.trans (List.sublist_append_left xs ys)⟩

/-! ## Blocks -/

theorem isBlock_nil : IsBlock sat [] seg ↔ seg = [] := by
  constructor
  · intro h
    exact (h.minimal [] (List.nil_prefix) .nil).symm
  · rintro rfl
    exact ⟨.nil, fun p hp _ => List.prefix_nil.mp hp⟩

/-- One item more in front: the same argument whether or not the item is used. -/
theorem isBlock_cons_iff {ss' : List σ}
    (h : ∀ l, Contains sat (s :: ss) (x :: l) ↔ Contains sat ss' l) :
    IsBlock sat (s :: ss) (x :: seg) ↔ IsBlock sat ss' seg := by
  constructor
  · intro hb
    refine ⟨(h seg).mp hb.contains, fun p hp hc => ?_⟩
    have := hb.minimal (x :: p) ((List.prefix_cons_inj x).mpr hp) ((h p).mpr hc)
    exact (List.cons.inj this).2
  · intro hb
    refine ⟨(h seg).mpr hb.contains, fun p hp hc => ?_⟩
    cases p with
    | nil => exact absurd hc not_contains_nil
    | cons z p =>
      obtain ⟨rfl, hpre⟩ := List.cons_prefix_cons.mp hp
      rw [hb.minimal p hpre ((h p).mp hc)]

theorem isBlock_cons_of_sat (h : sat s x) :
    IsBlock sat (s :: ss) (x :: seg) ↔ IsBlock sat ss seg :=
  isBlock_cons_iff fun _ => contains_cons_of_sat h

theorem isBlock_cons_of_not (h : ¬ sat s x) :
    IsBlock sat (s :: ss) (x :: seg) ↔ IsBlock sat (s :: ss) seg :=
  isBlock_cons_iff fun _ => contains_cons_of_not h

theorem IsBlock.ne_nil (h : IsBlock sat (s :: ss) seg) : seg ≠ [] := by
  rintro rfl
  exact not_contains_nil h.contains

/-- Two blocks at the start of one list are the same. -/
theorem IsBlock.unique {a b r t : List α} (ha : IsBlock sat ss a) (hb : IsBlock sat ss b)
    (h : a ++ r = b ++ t) : a = b := by
  rcases List.prefix_or_prefix_of_prefix (List.prefix_append a r) (h ▸ List.prefix_append b t)
    with hab | hba
  · exact hb.minimal a hab ha.contains
  · exact (ha.minimal b hba hb.contains).symm

/-! ## What is left after some blocks -/

theorem reaches_append_iff (hb : IsBlock sat ss seg) :
    Reaches sat ss (seg ++ rest) ys ↔ ys = seg ++ rest ∨ Reaches sat ss rest ys := by
  constructor
  · intro h
    generalize hxs : seg ++ rest = xs at h
    cases h with
    | refl => exact .inl rfl
    | block hb' h =>
      obtain rfl := hb.unique hb' hxs
      rw [List.append_cancel_left hxs]
      exact .inr h
  · rintro (rfl | h)
    · exact .refl _
    · exact .block hb h

theorem reaches_iff_of_not_contains (hc : ¬ Contains sat ss xs) :
    Reaches sat ss xs ys ↔ ys = xs := by
  constructor
  · intro h
    cases h with
    | refl => rfl
    | block hb _ => exact absurd (hb.contains.append _) hc
  · rintro rfl
    exact .refl _

/-! ## Which stage is due at which item -/

theorem not_dueAt_nil : ¬ DueAt sat ss [] t x := by
  rintro ⟨seg, post, -, -, h, -⟩
  simp at h

theorem not_dueAt_of_no_stage : ¬ DueAt sat [] xs t x := by
  rintro ⟨-, -, done, later, -, h, -⟩
  simp at h

/-- The first stage is due at the first item. -/
theorem dueAt_head (s : σ) (ss : List σ) (x : α) (xs : List α) : DueAt sat (s :: ss) (x :: xs) s x :=
  ⟨[], xs, [], ss, rfl, rfl, .nil, not_contains_nil⟩

theorem dueAt_cons_of_sat (h : sat s y) :
    DueAt sat (s :: ss) (y :: ys) t x ↔ (t = s ∧ x = y) ∨ DueAt sat ss ys t x := by
  constructor
  · rintro ⟨seg, post, done, later, hxs, hss, hdone, hnext⟩
    cases done with
    | nil =>
      cases seg with
      | nil =>
        obtain ⟨rfl, -⟩ := List.cons.inj hxs
        obtain ⟨rfl, -⟩ := List.cons.inj hss
        exact .inl ⟨rfl, rfl⟩
      | cons z seg =>
        -- the first item is behind already, and it satisfies the first stage
        obtain ⟨rfl, -⟩ := List.cons.inj hxs
        obtain ⟨rfl, -⟩ := List.cons.inj hss
        exact absurd ((contains_cons_of_sat h).mpr .nil) hnext
    | cons d done =>
      cases seg with
      | nil => exact absurd hdone not_contains_nil
      | cons z seg =>
        obtain ⟨rfl, hys⟩ := List.cons.inj hxs
        obtain ⟨rfl, hlater⟩ := List.cons.inj hss
        exact .inr ⟨seg, post, done, later, hys, hlater, (contains_cons_of_sat h).mp hdone,
          fun hc => hnext ((contains_cons_of_sat h).mpr hc)⟩
  · rintro (⟨rfl, rfl⟩ | ⟨seg, post, done, later, rfl, rfl, hdone, hnext⟩)
    · exact dueAt_head _ _ _ _
    · exact ⟨y :: seg, post, s :: done, later, rfl, rfl, (contains_cons_of_sat h).mpr hdone,
        fun hc => hnext ((contains_cons_of_sat h).mp hc)⟩

theorem dueAt_cons_of_not (h : ¬ sat s y) :
    DueAt sat (s :: ss) (y :: ys) t x ↔ (t = s ∧ x = y) ∨ DueAt sat (s :: ss) ys t x := by
  constructor
  · rintro ⟨seg, post, done, later, hxs, hss, hdone, hnext⟩
    cases seg with
    | nil =>
      cases done with
      | nil =>
        obtain ⟨rfl, -⟩ := List.cons.inj hxs
        obtain ⟨rfl, -⟩ := List.cons.inj hss
        exact .inl ⟨rfl, rfl⟩
      | cons d done => exact absurd hdone not_contains_nil
    | cons z seg =>
      obtain ⟨rfl, hys⟩ := List.cons.inj hxs
      refine .inr ⟨seg, post, done, later, hys, hss, ?_, fun hc => hnext (.cons_right hc)⟩
      cases done with
      | nil => exact .nil
      | cons d done =>
        obtain ⟨rfl, -⟩ := List.cons.inj hss
        exact (contains_cons_of_not h).mp hdone
  · rintro (⟨rfl, rfl⟩ | ⟨seg, post, done, later, rfl, hss, hdone, hnext⟩)
    · exact dueAt_head _ _ _ _
    · refine ⟨y :: seg, post, done, later, rfl, hss, .cons_right hdone, fun hc => hnext ?_⟩
      cases done with
      | nil =>
        obtain ⟨rfl, -⟩ := List.cons.inj hss
        exact (contains_cons_of_not h).mp hc
      | cons d done =>
        obtain ⟨rfl, -⟩ := List.cons.inj hss
        exact (contains_cons_of_not h).mp hc

/-! ## Bounds -/

theorem Bounds.cons {p : α → Prop} {a z : α} (hx : ¬ p x) (h : Bounds p seg a z) :
    Bounds p (x :: seg) a z := by
  obtain ⟨⟨skip, tail, rfl, ha, hskip⟩, hlast⟩ := h
  refine ⟨⟨x :: skip, tail, rfl, ha, ?_⟩, ?_⟩
  · intro y hy
    rcases List.mem_cons.mp hy with rfl | hy
    · exact hx
    · exact hskip y hy
  · rw [List.getLast?_cons, hlast]
    rfl

theorem Bounds.unique {p : α → Prop} {a z a' z' : α} (h : Bounds p seg a z)
    (h' : Bounds p seg a' z') : a = a' ∧ z = z' := by
  obtain ⟨⟨skip, tail, hseg, ha, hskip⟩, hlast⟩ := h
  obtain ⟨⟨skip', tail', hseg', ha', hskip'⟩, hlast'⟩ := h'
  refine ⟨?_, Option.some.inj (hlast.symm.trans hlast')⟩
  subst hseg
  clear hlast hlast'
  induction skip generalizing skip' with
  | nil =>
    cases skip' with
    | nil => exact (List.cons.inj hseg').1
    | cons y skip' =>
      obtain ⟨rfl, -⟩ := List.cons.inj hseg'
      exact absurd ha (hskip' _ List.mem_cons_self)
  | cons y skip ih =>
    cases skip' with
    | nil =>
      obtain ⟨rfl, -⟩ := List.cons.inj hseg'
      exact absurd ha' (hskip _ List.mem_cons_self)
    | cons y' skip' =>
      obtain ⟨-, htail⟩ := List.cons.inj hseg'
      exact ih (fun w hw => hskip w (List.mem_cons_of_mem _ hw)) skip'
        (fun w hw => hskip' w (List.mem_cons_of_mem _ hw)) htail

/-- A list that contains the stages starts with a block. -/
theorem exists_block (h : Contains sat (s :: ss) xs) : ∃ seg rest a z, xs = seg ++ rest ∧
    IsBlock sat (s :: ss) seg ∧ Bounds (sat s) seg a z := by
  induction xs generalizing s ss with
  | nil => exact absurd h not_contains_nil
  | cons x xs ih =>
    by_cases hx : sat s x
    · cases ss with
      | nil =>
        exact ⟨[x], xs, x, x, rfl, (isBlock_cons_of_sat hx).mpr (isBlock_nil.mpr rfl),
          ⟨[], [], rfl, hx, by simp⟩, rfl⟩
      | cons t ss =>
        obtain ⟨seg, rest, _, z, rfl, hb, hbounds⟩ := ih ((contains_cons_of_sat hx).mp h)
        refine ⟨x :: seg, rest, x, z, rfl, (isBlock_cons_of_sat hx).mpr hb,
          ⟨[], seg, rfl, hx, by simp⟩, ?_⟩
        rw [List.getLast?_cons, hbounds.last]
        rfl
    · obtain ⟨seg, rest, a, z, rfl, hb, hbounds⟩ := ih ((contains_cons_of_not hx).mp h)
      exact ⟨x :: seg, rest, a, z, rfl, (isBlock_cons_of_not hx).mpr hb, hbounds.cons hx⟩

end OrderedScan
