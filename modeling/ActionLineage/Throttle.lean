import Mathlib

/-!
# Items that come too soon

A stream of items in the order of their times, each with a key, is thinned out: an item is dropped
when it comes too soon after the last item kept under its key (`throttle`). Being too soon is any
relation that a later item can only leave. Then the items kept under one key are pairwise not too
soon, and whatever is dropped came too soon after an item that was kept (`throttled`): dropped items
never drop others.
-/

namespace Throttle

variable {α κ τ : Type} [BEq κ]

/-- Drops the items that come too soon after the last one kept under their key. `last` holds the
times of the items kept before, the newest first. -/
def throttle (key : α → κ) (time : α → τ) (soon : τ → τ → Bool) : List (κ × τ) → List α → List α
  | _, [] => []
  | last, x :: xs =>
    if (last.lookup (key x)).any fun t => soon t (time x) then throttle key time soon last xs
    else x :: throttle key time soon ((key x, time x) :: last) xs

variable {key : α → κ} {time : α → τ} {soon : τ → τ → Bool} {last : List (κ × τ)} {xs : List α}
  {x : α}

theorem throttle_sublist (last : List (κ × τ)) (xs : List α) :
    (throttle key time soon last xs).Sublist xs := by
  induction xs generalizing last with
  | nil => exact List.Sublist.refl _
  | cons x xs ih =>
    rw [throttle]
    split
    · exact (ih last).cons x
    · exact (ih _).cons_cons x

/-- What is dropped came too soon after an item kept before or now. -/
theorem soon_of_dropped [LawfulBEq κ] (hx : x ∈ xs) (hdropped : x ∉ throttle key time soon last xs) :
    (∃ t, last.lookup (key x) = some t ∧ soon t (time x) = true) ∨
      ∃ y ∈ throttle key time soon last xs,
        [y, x].Sublist xs ∧ key y = key x ∧ soon (time y) (time x) = true := by
  induction xs generalizing last with
  | nil => cases hx
  | cons z xs ih =>
    rw [throttle] at hdropped ⊢
    split at hdropped
    · rename_i hsoon
      rw [if_pos hsoon]
      rcases List.mem_cons.mp hx with rfl | hx
      · exact .inl (by simpa [Option.any_eq_true] using hsoon)
      · rcases ih hx hdropped with hlast | ⟨y, hy, hsub, hrest⟩
        · exact .inl hlast
        · exact .inr ⟨y, hy, hsub.cons z, hrest⟩
    · rename_i hkept
      rw [if_neg hkept]
      obtain ⟨hne, hdropped⟩ := not_or.mp (mt List.mem_cons.mpr hdropped)
      replace hx : x ∈ xs := (List.mem_cons.mp hx).resolve_left hne
      rcases ih hx hdropped with ⟨t, ht, hsoon⟩ | ⟨y, hy, hsub, hrest⟩
      · rw [List.lookup_cons] at ht
        split at ht
        · rename_i hkey
          obtain rfl := Option.some.inj ht
          refine .inr ⟨z, List.mem_cons_self, ?_, (beq_iff_eq.mp hkey).symm, hsoon⟩
          exact (List.singleton_sublist.mpr hx).cons_cons z
        · exact .inl ⟨t, ht, hsoon⟩
      · exact .inr ⟨y, List.mem_cons_of_mem z hy, hsub.cons z, hrest⟩

variable [LinearOrder τ]

/-- What is too soon after a time was too soon before. -/
def Leaving (soon : τ → τ → Bool) : Prop :=
  ∀ t s s', t ≤ s → s ≤ s' → soon t s' = true → soon t s = true

/-- The items kept of a stream. -/
structure Throttled (key : α → κ) (time : α → τ) (soon : τ → τ → Bool) (xs kept : List α) :
    Prop where
  sublist : kept.Sublist xs
  apart : kept.Pairwise fun x y => key x = key y → time x ≤ time y ∧ soon (time x) (time y) = false
  dropped : ∀ x ∈ xs, x ∉ kept →
    ∃ y ∈ kept, [y, x].Sublist xs ∧ key y = key x ∧ soon (time y) (time x) = true

/-- No item comes before the times in the list. -/
def NotBefore (time : α → τ) (last : List (κ × τ)) (xs : List α) : Prop :=
  ∀ k t, last.lookup k = some t → ∀ x ∈ xs, t ≤ time x

theorem NotBefore.tail (h : NotBefore time last (x :: xs)) : NotBefore time last xs :=
  fun k t hk y hy => h k t hk y (List.mem_cons_of_mem x hy)

theorem NotBefore.cons (h : NotBefore time last (x :: xs)) (hx : ∀ y ∈ xs, time x ≤ time y) :
    NotBefore time ((key x, time x) :: last) xs := by
  intro k t hk y hy
  rw [List.lookup_cons] at hk
  split at hk
  · obtain rfl := Option.some.inj hk
    exact hx y hy
  · exact h k t hk y (List.mem_cons_of_mem x hy)

variable [LawfulBEq κ]

/-- What is kept is not too soon after what was kept before. -/
theorem not_soon_after_last (hsoon : Leaving soon) (hsorted : xs.Pairwise fun x y => time x ≤ time y)
    (hlast : NotBefore time last xs) :
    ∀ y ∈ throttle key time soon last xs, ∀ t, last.lookup (key y) = some t →
      soon t (time y) = false := by
  induction xs generalizing last with
  | nil =>
    intro y hy
    cases hy
  | cons x xs ih =>
    obtain ⟨hx, hsorted⟩ := List.pairwise_cons.mp hsorted
    intro y hy t ht
    rw [throttle] at hy
    split at hy
    · exact ih hsorted hlast.tail y hy t ht
    · rename_i hkept
      rcases List.mem_cons.mp hy with rfl | hy'
      · simpa [ht] using hkept
      · by_cases hkey : key y = key x
        · -- the head was kept after `t`, and `y` comes later still
          have hhead : soon t (time x) ≠ true := by simpa [← hkey, ht] using hkept
          have htx : t ≤ time x := hlast _ t ht x List.mem_cons_self
          have hxy : time x ≤ time y := hx y ((throttle_sublist _ xs).subset hy')
          exact Bool.eq_false_iff.mpr fun hs => hhead (hsoon t _ _ htx hxy hs)
        · have htail : ((key x, time x) :: last).lookup (key y) = some t := by
            rw [List.lookup_cons, beq_false_of_ne hkey]
            exact ht
          exact ih hsorted (hlast.cons hx) y hy' t htail

theorem throttle_apart (hsoon : Leaving soon) (hsorted : xs.Pairwise fun x y => time x ≤ time y)
    (hlast : NotBefore time last xs) :
    (throttle key time soon last xs).Pairwise fun x y =>
      key x = key y → time x ≤ time y ∧ soon (time x) (time y) = false := by
  induction xs generalizing last with
  | nil => exact .nil
  | cons x xs ih =>
    obtain ⟨hx, hsorted⟩ := List.pairwise_cons.mp hsorted
    rw [throttle]
    split
    · exact ih hsorted hlast.tail
    · refine .cons (fun y hy hkey => ⟨hx y ((throttle_sublist _ xs).subset hy), ?_⟩)
        (ih hsorted (hlast.cons hx))
      apply not_soon_after_last hsoon hsorted (hlast.cons hx) y hy
      rw [List.lookup_cons, hkey, beq_self_eq_true]

theorem throttled (hsoon : Leaving soon) (hsorted : xs.Pairwise fun x y => time x ≤ time y) :
    Throttled key time soon xs (throttle key time soon [] xs) where
  sublist := throttle_sublist [] xs
  apart := throttle_apart hsoon hsorted fun _ _ hk => by cases hk
  dropped x hx hdropped := by
    rcases soon_of_dropped hx hdropped with ⟨t, ht, -⟩ | hkept
    · cases ht
    · exact hkept

end Throttle
