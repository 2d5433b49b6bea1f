import Mathlib

/-!
# Hash chains

Records that name the hash of the record before them. `Linked` is the chain condition from a start
hash, `terminal` the hash a chain ends in. When the hash of a record determines the record, equal
length and equal terminal hash determine the chain (`eq_of_terminal_eq`): the induction runs
backwards, since it is the last record that is known to be equal first.
-/

namespace HashChain

variable {R H : Type} (prev hash : R → Option H)

/-- Every record names the hash of the one before it; the first names `start`. -/
def Linked : Option H → List R → Prop
  | _, [] => True
  | start, r :: rs => prev r = start ∧ Linked (hash r) rs

/-- The hash after a list of records. -/
def terminal (start : Option H) (rs : List R) : Option H := rs.foldl (fun _ r => hash r) start

@[simp] theorem terminal_nil (start : Option H) : terminal hash start [] = start := rfl

@[simp] theorem terminal_cons (start : Option H) (r : R) (rs : List R) :
    terminal hash start (r :: rs) = terminal hash (hash r) rs := rfl

@[simp] theorem terminal_concat (start : Option H) (as : List R) (r : R) :
    terminal hash start (as ++ [r]) = hash r := by
  simp [terminal]

/-- From no hash, the terminal hash is the hash of the last record. -/
theorem terminal_none (rs : List R) : terminal hash none rs = rs.getLast?.bind hash := by
  rcases List.eq_nil_or_concat' rs with rfl | ⟨rs, r, rfl⟩ <;> simp

theorem linked_append {start : Option H} {as bs : List R} :
    Linked prev hash start (as ++ bs) ↔
      Linked prev hash start as ∧ Linked prev hash (terminal hash start as) bs := by
  induction as generalizing start with
  | nil => simp [Linked]
  | cons a as ih => simp [Linked, ih, and_assoc]

theorem linked_concat {start : Option H} {as : List R} {r : R} :
    Linked prev hash start (as ++ [r]) ↔
      Linked prev hash start as ∧ prev r = terminal hash start as := by
  simp [linked_append, Linked]

/-- When records with one hash are related, and related records name the same previous hash, chains
of one length with one terminal hash are related record by record. -/
theorem forall₂_of_terminal_eq {S T : R → Prop} {E : R → R → Prop}
    (hrel : ∀ r r', S r → T r' → hash r = hash r' → E r r') (hprev : ∀ r r', E r r' → prev r = prev r')
    {start : Option H} {as bs : List R} (ha : Linked prev hash start as)
    (hb : Linked prev hash start bs) (hSa : ∀ r ∈ as, S r) (hTb : ∀ r ∈ bs, T r)
    (hlen : as.length = bs.length) (hterm : terminal hash start as = terminal hash start bs) :
    List.Forall₂ E as bs := by
  induction as using List.reverseRecOn generalizing bs with
  | nil =>
    have : bs.length = 0 := by simpa using hlen.symm
    rw [List.length_eq_zero_iff.mp this]
    exact .nil
  | append_singleton as a ih =>
    obtain ⟨bs, b, rfl⟩ : ∃ bs' b, bs = bs' ++ [b] := by
      refine (List.eq_nil_or_concat' bs).resolve_left ?_
      rintro rfl
      simp at hlen
    rw [linked_concat] at ha hb
    rw [terminal_concat, terminal_concat] at hterm
    have hab : E a b := hrel a b (hSa a (by simp)) (hTb b (by simp)) hterm
    have hbefore : terminal hash start as = terminal hash start bs := by
      rw [← ha.2, ← hb.2]
      exact hprev a b hab
    have hinit : List.Forall₂ E as bs := ih ha.1 hb.1 (fun r hr => hSa r (by simp [hr]))
      (fun r hr => hTb r (by simp [hr])) (by simpa using hlen) hbefore
    exact List.rel_append hinit (.cons hab .nil)

/-- A chain is determined by its length and its terminal hash. -/
theorem eq_of_terminal_eq {S : R → Prop}
    (hinj : ∀ r r', S r → S r' → hash r = hash r' → r = r') {start : Option H} {as bs : List R}
    (ha : Linked prev hash start as) (hb : Linked prev hash start bs)
    (hSa : ∀ r ∈ as, S r) (hSb : ∀ r ∈ bs, S r) (hlen : as.length = bs.length)
    (hterm : terminal hash start as = terminal hash start bs) : as = bs := by
  have hrel := forall₂_of_terminal_eq prev hash hinj (fun r r' h => congrArg prev h) ha hb hSa hSb
    hlen hterm
  exact List.forall₂_eq_eq_eq ▸ hrel

end HashChain
