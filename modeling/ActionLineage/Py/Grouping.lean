import ActionLineage.Py.Results

/-!
# A dict of lists, filled by `setdefault(key, []).append(x)`

The dict is its items in insertion order. After appending every item of a list under its key, the
entry of a key is the items with that key, in their order (`GroupsOf`), and there is an entry for
exactly the keys that occur.
-/

namespace Py

variable {κ α : Type} [DecidableEq κ]

/-- `grouped.setdefault(key, []).append(x)`. -/
def appendAt (key : κ) (x : α) : List (κ × List α) → List (κ × List α)
  | [] => [(key, [x])]
  | (k, xs) :: rest => if k = key then (k, xs ++ [x]) :: rest else (k, xs) :: appendAt key x rest

/-- The items of a dict of lists: the items under each key, in order. -/
structure GroupsOf (key : α → κ) (xs : List α) (grouped : List (κ × List α)) : Prop where
  nodup : (grouped.map Prod.fst).Nodup
  mem_iff : ∀ k ys, (k, ys) ∈ grouped ↔ ys ≠ [] ∧ ys = xs.filter fun x => key x = k

theorem mem_appendAt {key : κ} {x : α} {grouped : List (κ × List α)}
    (hn : (grouped.map Prod.fst).Nodup) {k : κ} {ys : List α} :
    (k, ys) ∈ appendAt key x grouped ↔
      (k ≠ key ∧ (k, ys) ∈ grouped) ∨
        (k = key ∧ ((∃ zs, (key, zs) ∈ grouped ∧ ys = zs ++ [x]) ∨
          (key ∉ grouped.map Prod.fst ∧ ys = [x]))) := by
  induction grouped with
  | nil => simp [appendAt]
  | cons p grouped ih =>
    obtain ⟨k', zs⟩ := p
    rw [List.map_cons, List.nodup_cons] at hn
    have hmem : ∀ {k ys}, (k, ys) ∈ grouped → k ∈ grouped.map Prod.fst :=
      fun h => List.mem_map.mpr ⟨_, h, rfl⟩
    have ih := ih hn.2
    unfold appendAt
    split
    · rename_i heq
      subst heq
      have hk := hn.1
      simp only [List.mem_cons, Prod.mk.injEq, List.map_cons]
      constructor
      · rintro (⟨rfl, rfl⟩ | h)
        · exact .inr ⟨rfl, .inl ⟨zs, .inl ⟨trivial, rfl⟩, rfl⟩⟩
        · exact .inl ⟨fun he => hk (he ▸ hmem h), .inr h⟩
      · rintro (⟨hne, ⟨rfl, -⟩ | h⟩ | ⟨rfl, ⟨ws, ⟨-, rfl⟩ | h, rfl⟩ | ⟨hno, -⟩⟩)
        · exact absurd rfl hne
        · exact .inr h
        · exact .inl ⟨rfl, rfl⟩
        · exact absurd (hmem h) hk
        · exact absurd (.inl trivial) hno
    · rename_i hne
      simp only [List.mem_cons, Prod.mk.injEq, List.map_cons, ih, not_or]
      constructor
      · rintro (⟨rfl, rfl⟩ | ⟨hk, h⟩ | ⟨rfl, ⟨ws, h, rfl⟩ | ⟨hno, rfl⟩⟩)
        · exact .inl ⟨hne, .inl ⟨rfl, rfl⟩⟩
        · exact .inl ⟨hk, .inr h⟩
        · exact .inr ⟨rfl, .inl ⟨ws, .inr h, rfl⟩⟩
        · exact .inr ⟨rfl, .inr ⟨⟨Ne.symm hne, hno⟩, rfl⟩⟩
      · rintro (⟨hk, ⟨rfl, rfl⟩ | h⟩ | ⟨rfl, ⟨ws, ⟨rfl, -⟩ | h, rfl⟩ | ⟨⟨-, hno⟩, rfl⟩⟩)
        · exact .inl ⟨rfl, rfl⟩
        · exact .inr (.inl ⟨hk, h⟩)
        · exact absurd rfl hne
        · exact .inr (.inr ⟨rfl, .inl ⟨ws, h, rfl⟩⟩)
        · exact .inr (.inr ⟨rfl, .inr ⟨hno, rfl⟩⟩)

theorem keys_appendAt {key : κ} {x : α} {grouped : List (κ × List α)} :
    (appendAt key x grouped).map Prod.fst =
      if key ∈ grouped.map Prod.fst then grouped.map Prod.fst
      else grouped.map Prod.fst ++ [key] := by
  induction grouped with
  | nil => simp [appendAt]
  | cons p grouped ih =>
    unfold appendAt
    by_cases h : p.1 = key
    · simp [h]
    · simp only [h, if_false, List.map_cons, ih, List.mem_cons, Ne.symm h, false_or]
      split <;> simp

theorem GroupsOf.nil (key : α → κ) : GroupsOf key [] [] :=
  ⟨.nil, by simp⟩

theorem GroupsOf.append {key : α → κ} {xs : List α} {grouped : List (κ × List α)}
    (h : GroupsOf key xs grouped) (x : α) :
    GroupsOf key (xs ++ [x]) (appendAt (key x) x grouped) := by
  have hkeys : ∀ k, k ∉ grouped.map Prod.fst ↔ (xs.filter fun y => key y = k) = [] := by
    intro k
    rw [List.mem_map, not_exists]
    constructor
    · intro hno
      by_contra hne
      exact hno (k, _) ⟨(h.mem_iff k _).mpr ⟨hne, rfl⟩, rfl⟩
    · rintro hnil ⟨k', ys⟩ ⟨hmem, rfl⟩
      obtain ⟨hne, rfl⟩ := (h.mem_iff k' ys).mp hmem
      exact hne hnil
  refine ⟨?_, fun k ys => ?_⟩
  · rw [keys_appendAt]
    split
    · exact h.nodup
    · rename_i hno
      exact List.nodup_append.mpr ⟨h.nodup, List.nodup_singleton _, by
        rintro a ha b hb rfl
        exact hno (List.mem_singleton.mp hb ▸ ha)⟩
  · rw [mem_appendAt h.nodup, List.filter_append, hkeys]
    by_cases hk : k = key x
    · subst hk
      simp only [ne_eq, not_true_eq_false, false_and, true_and, false_or, h.mem_iff,
        List.filter_cons, List.filter_nil, decide_true, if_true]
      constructor
      · rintro (⟨zs, ⟨-, rfl⟩, rfl⟩ | ⟨hnil, rfl⟩)
        · exact ⟨by simp, rfl⟩
        · exact ⟨by simp, by rw [hnil]; rfl⟩
      · rintro ⟨-, rfl⟩
        by_cases hnil : (xs.filter fun y => key y = key x) = []
        · exact .inr ⟨hnil, by rw [hnil]; rfl⟩
        · exact .inl ⟨_, ⟨hnil, rfl⟩, rfl⟩
    · have hother : ([x].filter fun y => key y = k) = [] := by simp [Ne.symm hk]
      simp only [hk, ne_eq, not_false_eq_true, true_and, false_and, or_false, h.mem_iff, hother,
        List.append_nil]

/-- Grouping by a key that can fail to be computed: every item has one, and the groups are those of
the keys. -/
theorem groupsOf_foldlM {ε : Type} [Inhabited κ] {key : α → Except ε κ} {xs : List α}
    {grouped : List (κ × List α)}
    (h : xs.foldlM (fun grouped x => do .ok (appendAt (← key x) x grouped)) [] = .ok grouped) :
    (∀ x ∈ xs, ∃ k, key x = .ok k) ∧
      GroupsOf (fun x => (key x).toOption.getD default) xs grouped := by
  induction xs using List.reverseRecOn generalizing grouped with
  | nil =>
    obtain rfl := Except.ok.inj h
    exact ⟨by simp, .nil _⟩
  | append_singleton xs x ih =>
    rw [List.foldlM_append] at h
    obtain ⟨before, hbefore, h⟩ := bind_eq_ok.mp h
    rw [List.foldlM_cons] at h
    obtain ⟨after, hafter, h⟩ := bind_eq_ok.mp h
    obtain ⟨k, hk, hafter⟩ := bind_eq_ok.mp hafter
    obtain rfl := Except.ok.inj hafter
    obtain rfl := Except.ok.inj h
    obtain ⟨hkeys, hgroups⟩ := ih hbefore
    refine ⟨fun y hy => ?_, ?_⟩
    · rcases List.mem_append.mp hy with hy | hy
      · exact hkeys y hy
      · rw [List.mem_singleton.mp hy]
        exact ⟨k, hk⟩
    · have hdefault : (key x).toOption.getD default = k := by
        rw [hk]
        rfl
      have happended := hgroups.append x
      rwa [hdefault] at happended

/-- A group holds items with its key only. -/
theorem mem_of_foldlM_appendAt {ε : Type} [Inhabited κ] {key : α → Except ε κ} {xs : List α}
    {grouped : List (κ × List α)}
    (h : xs.foldlM (fun grouped x => do .ok (appendAt (← key x) x grouped)) [] = .ok grouped)
    {k : κ} {ys : List α} (hmem : (k, ys) ∈ grouped) {y : α} (hy : y ∈ ys) :
    y ∈ xs ∧ key y = .ok k := by
  obtain ⟨hkeys, hgroups⟩ := groupsOf_foldlM h
  obtain ⟨-, rfl⟩ := (hgroups.mem_iff k ys).mp hmem
  obtain ⟨hyxs, hkey⟩ := List.mem_filter.mp hy
  obtain ⟨k', hk'⟩ := hkeys y hyxs
  rw [hk'] at hkey
  have hsame : k' = k := of_decide_eq_true hkey
  exact ⟨hyxs, hsame ▸ hk'⟩

/-- Results that carry the key of the group they were computed from, picked by key: those of one
group, if there is one. -/
theorem filter_flatten_cases {α β κ : Type} [DecidableEq κ] {key : β → κ}
    {R : κ × α → List β → Prop} {gs : List (κ × α)} {results : List (List β)}
    (h : List.Forall₂ R gs results) (hn : (gs.map Prod.fst).Nodup)
    (hkey : ∀ g bs, R g bs → ∀ b ∈ bs, key b = g.1) (k : κ) :
    (k ∉ gs.map Prod.fst ∧ (results.flatten.filter fun b => key b = k) = []) ∨
      ∃ g ∈ gs, R g (results.flatten.filter fun b => key b = k) ∧ g.1 = k := by
  induction h with
  | nil => exact .inl ⟨List.not_mem_nil, rfl⟩
  | @cons g bs gs results hg hrest ih =>
    obtain ⟨hnotin, hn⟩ := List.nodup_cons.mp hn
    rw [List.flatten_cons, List.filter_append]
    by_cases hk : g.1 = k
    · have hfirst : (bs.filter fun b => key b = k) = bs :=
        List.filter_eq_self.mpr fun b hb => by simpa using (hkey g bs hg b hb).trans hk
      have hlater : (results.flatten.filter fun b => key b = k) = [] := by
        rcases ih hn with ⟨-, hnil⟩ | ⟨g', hg', -, hk'⟩
        · exact hnil
        · exact absurd (List.mem_map.mpr ⟨g', hg', hk'.trans hk.symm⟩) hnotin
      rw [hfirst, hlater, List.append_nil]
      exact .inr ⟨g, List.mem_cons_self, hg, hk⟩
    · have hfirst : (bs.filter fun b => key b = k) = [] :=
        List.filter_eq_nil_iff.mpr fun b hb => by simpa [hkey g bs hg b hb] using hk
      rw [hfirst, List.nil_append]
      rcases ih hn with ⟨habsent, hnil⟩ | ⟨g', hg', hr, hk'⟩
      · refine .inl ⟨fun hmem => ?_, hnil⟩
        rcases List.mem_cons.mp hmem with heq | hmem
        · exact hk heq.symm
        · exact habsent hmem
      · exact .inr ⟨g', List.mem_cons_of_mem _ hg', hr, hk'⟩

end Py
