import Mathlib

/-!
# Results and lists of results

What a successful computation in `Except` says about its parts, and lists related element by
element: mapping a function that can fail relates its inputs to its outputs (`mapM_eq_ok`), and
what follows is stated for any relation.
-/

namespace Py

section Results

variable {ε : Type} {α β : Type}

theorem bind_eq_ok {x : Except ε α} {f : α → Except ε β} {b : β} :
    (x >>= f) = .ok b ↔ ∃ a, x = .ok a ∧ f a = .ok b := by
  cases x <;> simp [bind, Except.bind]

theorem mapError_eq_ok {ε' : Type} {x : Except ε α} {f : ε → ε'} {a : α} :
    x.mapError f = .ok a ↔ x = .ok a := by
  cases x <;> simp [Except.mapError]

theorem map_eq_ok {x : Except ε α} {f : α → β} {b : β} :
    x.map f = .ok b ↔ ∃ a, x = .ok a ∧ f a = b := by
  cases x <;> simp [Except.map]

theorem exists_of_isOk {x : Except ε α} (h : x.isOk = true) : ∃ a, x = .ok a := by
  cases x with
  | error exc => cases h
  | ok a => exact ⟨a, rfl⟩

end Results

section Lists

variable {α β : Type} {R : α → β → Prop}

theorem exists_of_forall₂ {xs : List α} {ys : List β}
    (h : List.Forall₂ R xs ys) {y : β} (hy : y ∈ ys) : ∃ x ∈ xs, R x y := by
  induction h with
  | nil => simp at hy
  | cons hR _ ih =>
    rcases List.mem_cons.mp hy with rfl | hy
    · exact ⟨_, by simp, hR⟩
    · obtain ⟨x, hx, hxy⟩ := ih hy
      exact ⟨x, List.mem_cons_of_mem _ hx, hxy⟩

theorem forall₂_mem_left {xs : List α} {ys : List β}
    (h : List.Forall₂ R xs ys) {x : α} (hx : x ∈ xs) : ∃ y ∈ ys, R x y := by
  obtain ⟨y, hy, hxy⟩ := exists_of_forall₂ h.flip hx
  exact ⟨y, hy, hxy⟩

theorem exists_forall₂ {Q : β → Prop} {xs : List α}
    (h : ∀ x ∈ xs, ∃ y, R x y ∧ Q y) : ∃ ys, List.Forall₂ R xs ys ∧ ∀ y ∈ ys, Q y := by
  induction xs with
  | nil => exact ⟨[], .nil, by simp⟩
  | cons x xs ih =>
    obtain ⟨y, hxy, hy⟩ := h x (by simp)
    obtain ⟨ys, hys, hQ⟩ := ih fun z hz => h z (by simp [hz])
    refine ⟨y :: ys, .cons hxy hys, fun z hz => ?_⟩
    rcases List.mem_cons.mp hz with rfl | hz
    · exact hy
    · exact hQ z hz

theorem forall₂_pairwise {S : β → β → Prop} {T : α → α → Prop}
    (hST : ∀ a b a' b', R a b → R a' b' → S b b' → T a a') {as : List α} {bs : List β}
    (h : List.Forall₂ R as bs) (hs : bs.Pairwise S) : as.Pairwise T := by
  induction h with
  | nil => exact .nil
  | cons hab hrest ih =>
    rw [List.pairwise_cons] at hs
    refine List.pairwise_cons.mpr ⟨fun a' ha' => ?_, ih hs.2⟩
    obtain ⟨b', hb', hab'⟩ := forall₂_mem_left hrest ha'
    exact hST _ _ _ _ hab hab' (hs.1 b' hb')

theorem forall₂_filter {p : α → Bool} {q : β → Bool} (hpq : ∀ a b, R a b → p a = q b)
    {as : List α} {bs : List β} (h : List.Forall₂ R as bs) :
    List.Forall₂ R (as.filter p) (bs.filter q) := by
  induction h with
  | nil => exact .nil
  | @cons a b as bs hab _ ih =>
    rw [List.filter_cons, List.filter_cons, hpq a b hab]
    split
    · exact .cons hab ih
    · exact ih

theorem exists_perm_forall₂ {as : List α} {bs cs : List β} (h : List.Forall₂ R as bs)
    (hp : bs.Perm cs) : ∃ as', as'.Perm as ∧ List.Forall₂ R as' cs := by
  have hcomp : Relation.Comp (List.Forall₂ R) List.Perm as cs := ⟨bs, h, hp⟩
  rw [List.forall₂_comp_perm_eq_perm_comp_forall₂] at hcomp
  obtain ⟨as', hperm, hrel⟩ := hcomp
  exact ⟨as', hperm.symm, hrel⟩

theorem mapM_eq_ok {ε : Type} {f : α → Except ε β} {as : List α} {bs : List β} :
    as.mapM f = .ok bs ↔ List.Forall₂ (fun a b => f a = .ok b) as bs := by
  induction as generalizing bs with
  | nil =>
    simp only [List.mapM_nil, pure, Except.pure, Except.ok.injEq, List.forall₂_nil_left_iff]
    exact eq_comm
  | cons a as ih =>
    rw [List.mapM_cons, List.forall₂_cons_left_iff]
    simp only [← ih, bind_eq_ok, pure, Except.pure, Except.ok.injEq]
    constructor
    · rintro ⟨b, hb, bs, hbs, rfl⟩
      exact ⟨b, bs, hb, hbs, rfl⟩
    · rintro ⟨b, bs, hb, hbs, rfl⟩
      exact ⟨b, hb, bs, hbs, rfl⟩

theorem mapM_eq_error {ε : Type} {f : α → Except ε β} {as : List α} {e : ε}
    (h : as.mapM f = .error e) : ∃ a ∈ as, f a = .error e := by
  induction as with
  | nil => cases h
  | cons a as ih =>
    rw [List.mapM_cons] at h
    cases hfa : f a with
    | error e' =>
      rw [hfa] at h
      cases h
      exact ⟨a, List.mem_cons_self, hfa⟩
    | ok b =>
      rw [hfa] at h
      cases hrest : as.mapM f with
      | error e' =>
        rw [hrest] at h
        cases h
        obtain ⟨a', ha', hfa'⟩ := ih hrest
        exact ⟨a', List.mem_cons_of_mem _ ha', hfa'⟩
      | ok bs =>
        rw [hrest] at h
        cases h

theorem forall₂_comp {γ : Type} {S : β → γ → Prop} {T : α → γ → Prop}
    (hT : ∀ a b c, R a b → S b c → T a c) {as : List α} {bs : List β} {cs : List γ}
    (h : List.Forall₂ R as bs) (h' : List.Forall₂ S bs cs) : List.Forall₂ T as cs := by
  induction h generalizing cs with
  | nil =>
    cases h'
    exact .nil
  | cons hab _ ih =>
    cases h' with
    | cons hbc hrest => exact .cons (hT _ _ _ hab hbc) (ih hrest)

/-- In a list ordered by two keys, what one of them puts first the other does not put last. -/
theorem pairwise_agree {κ ι : Type} [LinearOrder κ] [LinearOrder ι] {k : α → κ} {i : α → ι}
    {as : List α} (hk : as.Pairwise fun a b => k a ≤ k b) (hi : as.Pairwise fun a b => i a ≤ i b)
    {a b : α} (ha : a ∈ as) (hb : b ∈ as) (hlt : i a < i b) : k a ≤ k b := by
  have hboth : as.Pairwise fun a b => (k a ≤ k b ∧ i a ≤ i b) ∨ (k b ≤ k a ∧ i b ≤ i a) :=
    (hk.and hi).imp Or.inl
  have hne : a ≠ b := by
    rintro rfl
    exact lt_irrefl _ hlt
  have : Std.Symm fun a b => (k a ≤ k b ∧ i a ≤ i b) ∨ (k b ≤ k a ∧ i b ≤ i a) :=
    ⟨fun _ _ h => h.symm⟩
  rcases hboth.forall ha hb hne with ⟨hle, -⟩ | ⟨-, hle⟩
  · exact hle
  · exact absurd hlt (not_lt.mpr hle)

end Lists

end Py
