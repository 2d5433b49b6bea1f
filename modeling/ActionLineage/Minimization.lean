import Mathlib

/-!
# One-minimal lists

A list that a test finds wrong is made smaller by leaving out one item at a time, as long as what
remains is still wrong (`minimize`). After each removal the scan starts again, so the test need not
be monotone: the loop ends, since the list gets shorter, and where it ends no single item can be left
out (`minimize_spec`). Items have an identity, and leaving one out drops every place it stands at.
-/

namespace Minimization

variable {ε α κ : Type} [DecidableEq κ]

/-- All items but those of this identity. -/
def without (key : α → κ) (x : α) (xs : List α) : List α := xs.filter fun y => key y ≠ key x

/-- The list without the first of the candidates that can be left out, if there is one. -/
def removeOne (key : α → κ) (wrong : List α → Except ε Bool) (xs : List α) :
    List α → Except ε (Option (List α))
  | [] => .ok none
  | x :: candidates =>
    match wrong (without key x xs) with
    | .error e => .error e
    | .ok true => .ok (some (without key x xs))
    | .ok false => removeOne key wrong xs candidates

variable {key : α → κ} {wrong : List α → Except ε Bool} {xs ys candidates : List α}

theorem without_sublist (key : α → κ) (x : α) (xs : List α) : (without key x xs).Sublist xs :=
  List.filter_sublist

theorem length_without_lt {x : α} (hx : x ∈ xs) : (without key x xs).length < xs.length :=
  List.length_filter_lt_length_iff_exists.mpr ⟨x, hx, by simp⟩

theorem removeOne_eq_some (h : removeOne key wrong xs candidates = .ok (some ys)) :
    ∃ x ∈ candidates, ys = without key x xs ∧ wrong ys = .ok true := by
  induction candidates with
  | nil => cases h
  | cons x candidates ih =>
    rw [removeOne] at h
    split at h
    · cases h
    · rename_i hwrong
      obtain rfl := Option.some.inj (Except.ok.inj h)
      exact ⟨x, List.mem_cons_self, rfl, hwrong⟩
    · obtain ⟨y, hy, hys⟩ := ih h
      exact ⟨y, List.mem_cons_of_mem _ hy, hys⟩

theorem removeOne_eq_none (h : removeOne key wrong xs candidates = .ok none) :
    ∀ x ∈ candidates, wrong (without key x xs) = .ok false := by
  induction candidates with
  | nil => simp
  | cons x candidates ih =>
    rw [removeOne] at h
    split at h
    · cases h
    · cases h
    · rename_i hright
      exact List.forall_mem_cons.mpr ⟨hright, ih h⟩

/-- What is raised comes from the test of a sublist. -/
theorem removeOne_eq_error {e : ε} (h : removeOne key wrong xs candidates = .error e) :
    ∃ ys, ys.Sublist xs ∧ wrong ys = .error e := by
  induction candidates with
  | nil => cases h
  | cons x candidates ih =>
    rw [removeOne] at h
    split at h
    · rename_i hraises
      obtain rfl := Except.error.inj h
      exact ⟨_, without_sublist key x xs, hraises⟩
    · cases h
    · exact ih h

theorem removeOne_length (h : removeOne key wrong xs xs = .ok (some ys)) : ys.length < xs.length := by
  obtain ⟨x, hx, rfl, -⟩ := removeOne_eq_some h
  exact length_without_lt hx

/-- Leaves out items as long as what remains is wrong. -/
def minimize (key : α → κ) (wrong : List α → Except ε Bool) (xs : List α) : Except ε (List α) :=
  match _hremove : removeOne key wrong xs xs with
  | .error e => .error e
  | .ok none => .ok xs
  | .ok (some ys) => minimize key wrong ys
termination_by xs.length
decreasing_by exact removeOne_length _hremove

/-- The list is wrong, and right without any one of its items. -/
structure OneMinimal (key : α → κ) (wrong : List α → Except ε Bool) (xs : List α) : Prop where
  stillWrong : wrong xs = .ok true
  minimal : ∀ x ∈ xs, wrong (without key x xs) = .ok false

theorem minimize_spec (hxs : wrong xs = .ok true) (h : minimize key wrong xs = .ok ys) :
    ys.Sublist xs ∧ OneMinimal key wrong ys := by
  induction xs using minimize.induct key wrong with
  | case1 xs e hremove =>
    rw [minimize, hremove] at h
    cases h
  | case2 xs hremove =>
    rw [minimize, hremove] at h
    obtain rfl := Except.ok.inj h
    exact ⟨List.Sublist.refl _, hxs, removeOne_eq_none hremove⟩
  | case3 xs zs hremove ih =>
    rw [minimize, hremove] at h
    obtain ⟨x, -, rfl, hzs⟩ := removeOne_eq_some hremove
    obtain ⟨hsub, hminimal⟩ := ih hzs h
    exact ⟨hsub.trans (without_sublist key x xs), hminimal⟩

/-- It raises only what the test raises on a sublist. -/
theorem minimize_eq_error {e : ε} (h : minimize key wrong xs = .error e) :
    ∃ ys, ys.Sublist xs ∧ wrong ys = .error e := by
  induction xs using minimize.induct key wrong with
  | case1 xs e' hremove =>
    rw [minimize, hremove] at h
    obtain rfl := Except.error.inj h
    exact removeOne_eq_error hremove
  | case2 xs hremove =>
    rw [minimize, hremove] at h
    cases h
  | case3 xs zs hremove ih =>
    rw [minimize, hremove] at h
    obtain ⟨x, -, rfl, -⟩ := removeOne_eq_some hremove
    obtain ⟨ys, hys, hraises⟩ := ih h
    exact ⟨ys, hys.trans (without_sublist key x xs), hraises⟩

end Minimization
