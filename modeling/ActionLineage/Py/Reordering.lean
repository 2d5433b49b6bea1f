import ActionLineage.Py.Grouping
import ActionLineage.Py.Results

/-!
# Computing on a list in another order

What is sorted by a key without repetitions does not depend on the order it came in
(`eq_of_perm_of_sorted`), and neither do the groups of a list once each of them is sorted
(`GroupsOf.map_perm`). Applying a fallible function to the items in another order returns the same
results in another order, or raises both times (`mapM_perm`). Items selected from a list, in any
order, are the items at pairwise distinct positions (`exists_positions_of_subperm`).
-/

namespace Py

variable {α β : Type}

theorem eq_of_perm_of_sorted {κ : Type} [LinearOrder κ] {key : α → κ} {xs ys : List α}
    (hp : xs.Perm ys) (hn : (xs.map key).Nodup) (hx : xs.Pairwise fun a b => key a ≤ key b)
    (hy : ys.Pairwise fun a b => key a ≤ key b) : xs = ys := by
  refine hp.eq_of_pairwise (fun a b ha hb hab hba => ?_) hx hy
  exact List.inj_on_of_nodup_map hn ha (hp.mem_iff.mpr hb) (le_antisymm hab hba)

theorem insertionSort_eq_of_perm {κ : Type} [LinearOrder κ] {key : α → κ} {xs ys : List α}
    (hp : xs.Perm ys) (hn : (xs.map key).Nodup) :
    xs.insertionSort (fun a b => key a ≤ key b) = ys.insertionSort fun a b => key a ≤ key b := by
  have : Std.Total fun a b : α => key a ≤ key b := ⟨fun a b => le_total _ _⟩
  have : IsTrans α fun a b => key a ≤ key b := ⟨fun _ _ _ => le_trans⟩
  have hxs := List.perm_insertionSort (fun a b => key a ≤ key b) xs
  have hys := List.perm_insertionSort (fun a b => key a ≤ key b) ys
  refine eq_of_perm_of_sorted (hxs.trans (hp.trans hys.symm)) ?_
    (List.pairwise_insertionSort _ _) (List.pairwise_insertionSort _ _)
  exact (hxs.map key).nodup_iff.mpr hn

theorem GroupsOf.map_perm {κ : Type} [DecidableEq κ] {key : α → κ} {xs ys : List α}
    {gs hs : List (κ × List α)} (hgs : GroupsOf key xs gs) (hhs : GroupsOf key ys hs)
    (hp : xs.Perm ys) {norm : List α → List β}
    (hnorm : ∀ k, norm (xs.filter fun x => key x = k) = norm (ys.filter fun x => key x = k)) :
    (gs.map (Prod.map id norm)).Perm (hs.map (Prod.map id norm)) := by
  have hkeys (l : List (κ × List α)) : (l.map (Prod.map id norm)).map Prod.fst = l.map Prod.fst := by
    simp
  have hnodup {l : List (κ × List α)} (h : (l.map Prod.fst).Nodup) :
      (l.map (Prod.map id norm)).Nodup := List.Nodup.of_map Prod.fst (by rwa [hkeys])
  apply (List.perm_ext_iff_of_nodup (hnodup hgs.nodup) (hnodup hhs.nodup)).mpr
  -- a group of one list is, up to the order of its items, the group of the other
  have hsub : ∀ {xs ys : List α} {gs hs : List (κ × List α)}, GroupsOf key xs gs →
      GroupsOf key ys hs → xs.Perm ys →
      (∀ k, norm (xs.filter fun x => key x = k) = norm (ys.filter fun x => key x = k)) →
      ∀ p ∈ gs.map (Prod.map id norm), p ∈ hs.map (Prod.map id norm) := by
    intro xs ys gs hs hgs hhs hp hnorm p hmem
    obtain ⟨⟨k, zs⟩, hzs, rfl⟩ := List.mem_map.mp hmem
    obtain ⟨hne, rfl⟩ := (hgs.mem_iff k zs).mp hzs
    refine List.mem_map.mpr ⟨(k, ys.filter fun x => key x = k), (hhs.mem_iff _ _).mpr ⟨?_, rfl⟩, ?_⟩
    · intro hnil
      have hfilter := hp.filter fun x => decide (key x = k)
      rw [hnil] at hfilter
      exact hne hfilter.eq_nil
    · simp only [Prod.map_apply, id_eq, hnorm]
  intro p
  exact ⟨hsub hgs hhs hp hnorm p, hsub hhs hgs hp.symm (fun k => (hnorm k).symm) p⟩

/-- Both raise, or both return and the results are related. -/
def SameOutcome {ε : Type} (R : α → α → Prop) : Except ε α → Except ε α → Prop
  | .ok a, .ok b => R a b
  | .error _, .error _ => True
  | _, _ => False

theorem mapM_perm {ε : Type} {f : α → Except ε β} {xs ys : List α} (hp : xs.Perm ys) :
    SameOutcome List.Perm (xs.mapM f) (ys.mapM f) := by
  have hraise {xs ys : List α} (hp : xs.Perm ys) {bs : List β} {e : ε} (hxs : xs.mapM f = .ok bs)
      (hys : ys.mapM f = .error e) : False := by
    obtain ⟨a, ha, hfa⟩ := mapM_eq_error hys
    obtain ⟨b, -, hb⟩ := forall₂_mem_left (mapM_eq_ok.mp hxs) (hp.mem_iff.mpr ha)
    rw [hfa] at hb
    cases hb
  cases hxs : xs.mapM f with
  | ok bs =>
    cases hys : ys.mapM f with
    | ok cs =>
      -- the results of the reordered list are a reordering of the results
      obtain ⟨bs', hbs', hrel⟩ := exists_perm_forall₂ (mapM_eq_ok.mp hxs).flip hp
      have hsame : List.Forall₂ (fun a b => f a = .ok b) ys bs' := hrel.flip
      obtain rfl : cs = bs' := by
        have := mapM_eq_ok.mpr hsame
        exact Except.ok.inj (hys.symm.trans this)
      exact hbs'.symm
    | error e => exact hraise hp hxs hys
  | error e =>
    cases hys : ys.mapM f with
    | ok cs => exact hraise hp.symm hys hxs
    | error e' => trivial

/-! ## Positions -/

/-- A selection of items, each place of the list used once at most. -/
theorem exists_positions_of_subperm {xs ys : List α} (h : ys.Subperm xs) :
    ∃ positions : List (Fin xs.length), positions.Nodup ∧ positions.map xs.get = ys := by
  obtain ⟨zs, hperm, hsub⟩ := h
  obtain ⟨sorted, rfl, hsorted⟩ := List.sublist_eq_map_getElem hsub
  have hvalues : List.Forall₂ (fun i x => xs.get i = x) sorted (sorted.map fun i => xs[i]) :=
    List.forall₂_map_right_iff.mpr (List.forall₂_same.mpr fun _ _ => rfl)
  -- the positions in the order in which their items were selected
  obtain ⟨positions, hpositions, hrel⟩ := exists_perm_forall₂ hvalues hperm
  refine ⟨positions, hpositions.nodup_iff.mpr (hsorted.imp ne_of_lt), ?_⟩
  exact List.forall₂_eq_eq_eq ▸ List.forall₂_map_left_iff.mpr hrel

theorem exists_positions_of_sublist {xs ys : List α} (h : ys.Sublist xs) :
    ∃ positions : List (Fin xs.length), positions.Pairwise (· < ·) ∧ positions.map xs.get = ys := by
  obtain ⟨positions, rfl, hsorted⟩ := List.sublist_eq_map_getElem h
  exact ⟨positions, hsorted, rfl⟩

/-- A list whose images are cut into pieces is cut in the same places. -/
theorem exists_flatten_of_map {f : α → β} {yss : List (List β)} {xs : List α}
    (h : xs.map f = yss.flatten) : ∃ xss : List (List α), xss.flatten = xs ∧
      xss.map (List.map f) = yss := by
  induction yss generalizing xs with
  | nil => exact ⟨[], by simpa using h.symm, rfl⟩
  | cons ys yss ih =>
    rw [List.flatten_cons] at h
    obtain ⟨front, rest, rfl, rfl, hrest⟩ := List.map_eq_append_iff.mp h
    obtain ⟨xss, rfl, rfl⟩ := ih hrest
    exact ⟨front :: xss, rfl, rfl⟩

end Py
