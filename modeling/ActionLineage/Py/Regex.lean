import ActionLineage.Py.Str

/-!
# Backtracking regular expressions — `pattern.sub(replacement, text)`

The engine returns every way to match, in the order a backtracking matcher tries them; the first
one is the match. Repetition is over character classes only, so no fuel is needed to match.

`Re.needs` is a static check on a pattern: whatever it matches contains a character outside the
given alphabet. Text over that alphabet is then left alone by `sub` (`sub_of_needs`).
-/

namespace Py

/-- A set of characters. -/
abbrev CharSet := CodePoint → Bool

/-- A position in the text: the previous character, what is left, and group 1. -/
structure Pos where
  prev : Option CodePoint
  rest : Str
  group : Option Str

inductive Re
  | eps
  | cls (c : CharSet)
  /-- `c{min,max}`, tried longest first unless `lazy`. -/
  | rep (c : CharSet) (min : Nat) (max : Option Nat) (lazy : Bool)
  | seq (a b : Re)
  | alt (a b : Re)
  /-- Group 1. -/
  | group (a : Re)
  /-- `\b`, with the word characters. -/
  | boundary (word : CharSet)
  /-- `(?<!c)`. -/
  | notBehind (c : CharSet)
  /-- `(?!c)`. -/
  | notAhead (c : CharSet)

namespace Re

/-- The positions after `0, 1, 2, …` characters of the class, up to `max`. -/
def runs (c : CharSet) (group : Option Str) :
    Option CodePoint → Str → Option Nat → List Pos
  | prev, rest, some 0 => [⟨prev, rest, group⟩]
  | prev, [], _ => [⟨prev, [], group⟩]
  | prev, x :: rest, max =>
    if c x then ⟨prev, x :: rest, group⟩ :: runs c group (some x) rest (max.map (· - 1))
    else [⟨prev, x :: rest, group⟩]

def attempt : Re → Pos → List Pos
  | eps, p => [p]
  | cls c, p =>
    match p.rest with
    | [] => []
    | x :: rest => if c x then [⟨some x, rest, p.group⟩] else []
  | rep c min max lazy, p =>
    let ends := (runs c p.group p.prev p.rest max).drop min
    if lazy then ends else ends.reverse
  | seq a b, p => (attempt a p).flatMap (attempt b)
  | alt a b, p => attempt a p ++ attempt b p
  | group a, p =>
    (attempt a p).map fun q => { q with group := some (p.rest.take (p.rest.length - q.rest.length)) }
  | boundary word, p => if p.prev.any word == p.rest.head?.any word then [] else [p]
  | notBehind c, p => if p.prev.any c then [] else [p]
  | notAhead c, p => if p.rest.head?.any c then [] else [p]

/-- The literal `s`, character by character. -/
def text (f : Char → CharSet) (s : String) : Re :=
  s.toList.foldr (fun c r => seq (cls (f c)) r) eps

def alts : List Re → Re
  | [] => cls fun _ => false
  | [a] => a
  | a :: as => alt a (alts as)

def seqs : List Re → Re
  | [] => eps
  | a :: as => seq a (seqs as)

/-- `a?` for a class. -/
def opt (c : CharSet) : Re := rep c 0 (some 1) false

end Re

/-- A piece of a replacement template. -/
inductive Piece
  | text (s : Str)
  | group

def expand (template : List Piece) (group : Option Str) : Str :=
  template.flatMap fun
    | .text s => s
    | .group => group.getD []

/-- Scans left to right; a match is replaced and the scan goes on after it. An empty match leaves
its character alone (no pattern of the code matches the empty text). -/
def subFrom (re : Re) (template : List Piece) : Nat → Option CodePoint → Str → Str
  | 0, _, rest => rest
  | _, _, [] => []
  | fuel + 1, prev, x :: rest =>
    match re.attempt ⟨prev, x :: rest, none⟩ with
    | q :: _ =>
      if q.rest.length < (x :: rest).length then
        expand template q.group ++ subFrom re template fuel q.prev q.rest
      else x :: subFrom re template fuel (some x) rest
    | [] => x :: subFrom re template fuel (some x) rest

/-- `pattern.sub(replacement, text)`. -/
def Re.sub (re : Re) (template : List Piece) (text : Str) : Str :=
  subFrom re template text.length none text

/-! ## Text a pattern cannot match -/

namespace Re

/-- Every match consumes a character outside the alphabet. -/
def needs (alphabet : Str) : Re → Bool
  | cls c => alphabet.all fun x => !c x
  | rep c min _ _ => decide (0 < min) && alphabet.all fun x => !c x
  | seq a b => a.needs alphabet || b.needs alphabet
  | alt a b => a.needs alphabet && b.needs alphabet
  | group a => a.needs alphabet
  | _ => false

theorem runs_suffix {c : CharSet} {g : Option Str} {prev : Option CodePoint} {rest : Str}
    {max : Option Nat} {q : Pos} (hq : q ∈ runs c g prev rest max) : q.rest <:+ rest := by
  induction rest generalizing prev max with
  | nil =>
    rcases max with _ | _ | n <;> simp only [runs, List.mem_singleton] at hq <;> subst hq <;> simp
  | cons x rest ih =>
    have htail : ∀ {m : Option Nat}, q ∈ runs c g (some x) rest m → q.rest <:+ x :: rest :=
      fun h => (ih h).trans (List.suffix_cons x rest)
    rcases max with _ | _ | n
    · simp only [runs] at hq
      split at hq
      · rcases List.mem_cons.mp hq with rfl | hq
        · exact List.suffix_refl _
        · exact htail hq
      · rw [List.mem_singleton.mp hq]
    · simp only [runs, List.mem_singleton] at hq
      rw [hq]
    · simp only [runs] at hq
      split at hq
      · rcases List.mem_cons.mp hq with rfl | hq
        · exact List.suffix_refl _
        · exact htail hq
      · rw [List.mem_singleton.mp hq]

/-- What is left after a match is a suffix of what was left before it. -/
theorem attempt_suffix {re : Re} {p q : Pos} (hq : q ∈ re.attempt p) : q.rest <:+ p.rest := by
  induction re generalizing p q with
  | eps =>
    rw [List.mem_singleton.mp hq]
  | cls c =>
    simp only [attempt] at hq
    split at hq
    · simp at hq
    · rename_i x rest hrest
      split at hq
      · rw [List.mem_singleton.mp hq, hrest]
        exact List.suffix_cons x rest
      · simp at hq
  | rep c min max lazy =>
    have hruns : q ∈ runs c p.group p.prev p.rest max := by
      simp only [attempt] at hq
      split at hq
      · exact List.mem_of_mem_drop hq
      · exact List.mem_of_mem_drop (List.mem_reverse.mp hq)
    exact runs_suffix hruns
  | seq a b iha ihb =>
    obtain ⟨r, hr, hq⟩ := List.mem_flatMap.mp hq
    exact (ihb hq).trans (iha hr)
  | alt a b iha ihb =>
    rcases List.mem_append.mp hq with hq | hq
    · exact iha hq
    · exact ihb hq
  | group a ih =>
    obtain ⟨r, hr, rfl⟩ := List.mem_map.mp hq
    have hsuffix : r.rest <:+ p.rest := ih hr
    exact hsuffix
  | boundary word =>
    simp only [attempt] at hq
    split at hq
    · simp at hq
    · rw [List.mem_singleton.mp hq]
  | notBehind c =>
    simp only [attempt] at hq
    split at hq
    · simp at hq
    · rw [List.mem_singleton.mp hq]
  | notAhead c =>
    simp only [attempt] at hq
    split at hq
    · simp at hq
    · rw [List.mem_singleton.mp hq]

theorem runs_length_le_one {c : CharSet} {g : Option Str} {prev : Option CodePoint} {rest : Str}
    {max : Option Nat} (h : ∀ x ∈ rest, c x = false) : (runs c g prev rest max).length = 1 := by
  cases rest with
  | nil => rcases max with _ | _ | n <;> rfl
  | cons x rest =>
    have hx := h x (by simp)
    rcases max with _ | _ | n <;> simp [runs, hx]

theorem attempt_eq_nil_of_needs {re : Re} {alphabet : Str} (hre : re.needs alphabet = true)
    {p : Pos} (hp : ∀ x ∈ p.rest, x ∈ alphabet) : re.attempt p = [] := by
  induction re generalizing p with
  | cls c =>
    simp only [needs, List.all_eq_true, Bool.not_eq_true'] at hre
    cases hrest : p.rest with
    | nil => simp [attempt, hrest]
    | cons x rest =>
      have hx := hre x (hp x (by simp [hrest]))
      simp [attempt, hrest, hx]
  | rep c min max lazy =>
    simp only [needs, Bool.and_eq_true, decide_eq_true_eq, List.all_eq_true,
      Bool.not_eq_true'] at hre
    have hlen : (runs c p.group p.prev p.rest max).length = 1 :=
      runs_length_le_one fun x hx => hre.2 x (hp x hx)
    have hdrop : (runs c p.group p.prev p.rest max).drop min = [] := by
      rw [List.drop_eq_nil_iff]
      omega
    simp [attempt, hdrop]
  | seq a b iha ihb =>
    simp only [needs, Bool.or_eq_true] at hre
    rcases hre with ha | hb
    · simp [attempt, iha ha hp]
    · simp only [attempt, List.flatMap_eq_nil_iff]
      intro q hq
      exact ihb hb fun x hx => hp x ((attempt_suffix hq).subset hx)
  | alt a b iha ihb =>
    simp only [needs, Bool.and_eq_true] at hre
    simp [attempt, iha hre.1 hp, ihb hre.2 hp]
  | group a ih => simp [attempt, ih hre hp]
  | _ => simp [needs] at hre

end Re

theorem subFrom_of_needs {re : Re} {alphabet : Str} (hre : re.needs alphabet = true)
    (template : List Piece) (fuel : Nat) (prev : Option CodePoint) {s : Str}
    (hs : ∀ x ∈ s, x ∈ alphabet) : subFrom re template fuel prev s = s := by
  induction fuel generalizing prev s with
  | zero => rfl
  | succ fuel ih =>
    cases s with
    | nil => rfl
    | cons x s =>
      rw [subFrom, Re.attempt_eq_nil_of_needs hre hs]
      simp only [ih (some x) fun y hy => hs y (List.mem_cons_of_mem _ hy)]

/-- Text over the alphabet is left alone. -/
theorem Re.sub_of_needs {re : Re} {alphabet : Str} (hre : re.needs alphabet = true)
    (template : List Piece) {s : Str} (hs : ∀ x ∈ s, x ∈ alphabet) : re.sub template s = s :=
  subFrom_of_needs hre template _ _ hs

/-- No match starts inside the text, whatever follows it. -/
def NoMatchIn (re : Re) : Option CodePoint → Str → Prop
  | _, [] => True
  | prev, x :: kept =>
    (∀ rest, re.attempt ⟨prev, x :: (kept ++ rest), none⟩ = []) ∧ NoMatchIn re (some x) kept

theorem NoMatchIn.subFrom {re : Re} {prev : Option CodePoint} {kept : Str}
    (h : NoMatchIn re prev kept) (template : List Piece) {fuel : Nat} (hfuel : kept.length ≤ fuel)
    (rest : Str) : ∃ rest', subFrom re template fuel prev (kept ++ rest) = kept ++ rest' := by
  induction kept generalizing prev fuel with
  | nil => exact ⟨_, rfl⟩
  | cons x kept ih =>
    cases fuel with
    | zero => exact absurd hfuel (by simp)
    | succ fuel =>
      obtain ⟨rest', hrest'⟩ := ih h.2 (Nat.le_of_succ_le_succ hfuel)
      refine ⟨rest', ?_⟩
      show Py.subFrom re template (fuel + 1) prev (x :: (kept ++ rest)) = x :: (kept ++ rest')
      rw [Py.subFrom, h.1 rest]
      dsimp only
      rw [hrest']

end Py
