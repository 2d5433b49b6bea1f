import ActionLineage.Platform

/-!
# POSIX paths — `pathlib.PurePosixPath` and `Path.resolve`

A path is whether it starts at the root, and its parts: neither empty nor `.`, and without a
separator. `resolve` is `Path.resolve(strict=False)` on a file system without symbolic links, where
`..` takes the part before it away whether or not a file stands there.

Containment is `is_relative_to`, a prefix order on resolved paths (`resolve_of_resolved` and
`isRelativeTo_common`).
-/

namespace Py

open ActionLineage (PyError)

def SEP : CodePoint := cp '/'

/-- A part of a path. -/
def IsPart (s : Str) : Prop := s ≠ [] ∧ s ≠ lit "." ∧ SEP ∉ s

instance (s : Str) : Decidable (IsPart s) := inferInstanceAs (Decidable (_ ∧ _ ∧ _))

theorem notMem_of_mem_splitOn {sep : CodePoint} {s part : Str} (h : part ∈ s.splitOn sep) :
    sep ∉ part := by
  induction s generalizing part with
  | nil =>
    obtain rfl := List.mem_singleton.mp h
    exact List.not_mem_nil
  | cons c s ih =>
    rw [List.splitOn_cons_eq_if_modifyHead] at h
    split at h
    · rcases List.mem_cons.mp h with rfl | h
      · exact List.not_mem_nil
      · exact ih h
    · rename_i hc
      -- the character joins the first part
      obtain ⟨first, rest, hsplit⟩ := List.exists_cons_of_ne_nil (List.splitOn_ne_nil sep s)
      rw [hsplit, List.modifyHead_cons] at h
      rw [hsplit] at ih
      rcases List.mem_cons.mp h with rfl | h
      · intro hmem
        rcases List.mem_cons.mp hmem with rfl | hmem
        · exact hc (beq_self_eq_true _)
        · exact ih List.mem_cons_self hmem
      · exact ih (List.mem_cons_of_mem _ h)

/-- `pathlib.PurePosixPath`. -/
@[ext] structure PurePath where
  isAbsolute : Bool
  parts : List Str
  isPart : ∀ part ∈ parts, IsPart part
deriving DecidableEq

namespace PurePath

/-- `Path(s)`. -/
def parse (s : Str) : PurePath where
  isAbsolute := s.head? == some SEP
  parts := (s.splitOn SEP).filter fun part => decide (part ≠ [] ∧ part ≠ lit ".")
  isPart := by
    intro part h
    obtain ⟨hmem, hpart⟩ := List.mem_filter.mp h
    obtain ⟨hnil, hdot⟩ := of_decide_eq_true hpart
    exact ⟨hnil, hdot, notMem_of_mem_splitOn hmem⟩

/-- `p / q`: an absolute right-hand side replaces the path. -/
def div (p q : PurePath) : PurePath :=
  if q.isAbsolute then q
  else
    { isAbsolute := p.isAbsolute
      parts := p.parts ++ q.parts
      isPart := fun part h => (List.mem_append.mp h).elim (p.isPart part) (q.isPart part) }

/-- `p / s` for a string. -/
def join (p : PurePath) (s : Str) : PurePath := p.div (parse s)

/-- `p.joinpath(*segments)`. -/
def joinpath (p : PurePath) (segments : List Str) : PurePath := segments.foldl join p

/-- `Path(*segments)`. -/
def ofSegments (segments : List Str) : PurePath := joinpath ⟨false, [], by simp⟩ segments

/-- `p.is_relative_to(other)`. -/
def isRelativeTo (p other : PurePath) : Bool :=
  p.isAbsolute == other.isAbsolute && other.parts.isPrefixOf p.parts

/-! ## Resolving -/

def PARDIR : Str := lit ".."

/-- One part on top of the parts resolved before it. -/
def push (resolved : List Str) (part : Str) : List Str :=
  if part = PARDIR then resolved.dropLast else resolved ++ [part]

/-- `..` taken away with the part before it. -/
def collapse (parts : List Str) : List Str := parts.foldl push []

theorem mem_foldl_push {part : Str} (parts : List Str) (resolved : List Str)
    (h : part ∈ parts.foldl push resolved) : part ∈ resolved ∨ (part ∈ parts ∧ part ≠ PARDIR) := by
  induction parts generalizing resolved with
  | nil => exact .inl h
  | cons first parts ih =>
    rcases ih _ h with h | ⟨h, hne⟩
    · unfold push at h
      split at h
      · exact .inl (List.mem_of_mem_dropLast h)
      · rename_i hfirst
        rcases List.mem_append.mp h with h | h
        · exact .inl h
        · obtain rfl := List.mem_singleton.mp h
          exact .inr ⟨List.mem_cons_self, hfirst⟩
    · exact .inr ⟨List.mem_cons_of_mem _ h, hne⟩

theorem mem_collapse {part : Str} {parts : List Str} (h : part ∈ collapse parts) :
    part ∈ parts ∧ part ≠ PARDIR :=
  (mem_foldl_push parts [] h).resolve_left List.not_mem_nil

theorem foldl_push_of_notMem (parts : List Str) (resolved : List Str) (h : PARDIR ∉ parts) :
    parts.foldl push resolved = resolved ++ parts := by
  induction parts generalizing resolved with
  | nil => rw [List.foldl_nil, List.append_nil]
  | cons first parts ih =>
    have hfirst : first ≠ PARDIR := fun heq => h (heq ▸ List.mem_cons_self)
    rw [List.foldl_cons, ih _ (fun hmem => h (List.mem_cons_of_mem _ hmem)), push, if_neg hfirst,
      List.append_assoc, List.singleton_append]

theorem collapse_append_of_notMem (parts more : List Str) (h : PARDIR ∉ more) :
    collapse (parts ++ more) = collapse parts ++ more := by
  rw [collapse, List.foldl_append, foldl_push_of_notMem _ _ h, collapse]

theorem collapse_of_notMem {parts : List Str} (h : PARDIR ∉ parts) : collapse parts = parts :=
  foldl_push_of_notMem parts [] h

/-- `os.fsencode` finds bytes for the character: a surrogate only stands for an undecodable byte. -/
def isFsEncodable (c : CodePoint) : Bool := !isSurrogate c || (0xDC80 ≤ c.val && c.val ≤ 0xDCFF)

/-- The system call on a path that ends in the part. -/
def lstat (part : Str) : Except PyError Unit :=
  if !part.all isFsEncodable then .error .unicodeEncodeError
  else if part.contains (cp '\x00') then .error (.valueError "lstat: embedded null character in path")
  else .ok ()

/-- `p.resolve(strict=False)` from the working directory `cwd`. -/
def resolve (p cwd : PurePath) : Except PyError PurePath := do
  p.parts.forM lstat
  let parts := if p.isAbsolute then p.parts else cwd.parts ++ p.parts
  .ok
    { isAbsolute := true
      parts := collapse parts
      isPart := fun part h => by
        have hmem : part ∈ parts := (mem_collapse h).1
        by_cases habs : p.isAbsolute
        · exact p.isPart part (by rwa [show parts = p.parts from if_pos habs] at hmem)
        · rw [show parts = cwd.parts ++ p.parts from if_neg habs] at hmem
          exact (List.mem_append.mp hmem).elim (cwd.isPart part) (p.isPart part) }

variable {cwd p q r : PurePath}

/-- Absolute, and without `..`. -/
def Resolved (p : PurePath) : Prop := p.isAbsolute = true ∧ PARDIR ∉ p.parts

theorem resolve_eq_ok : p.resolve cwd = .ok q ↔
    p.parts.forM lstat = .ok () ∧ q.isAbsolute = true ∧
      q.parts = collapse (if p.isAbsolute then p.parts else cwd.parts ++ p.parts) := by
  unfold resolve
  cases hstat : p.parts.forM lstat with
  | error exc => simp [bind, Except.bind]
  | ok _ =>
    constructor
    · intro h
      obtain rfl := Except.ok.inj h
      exact ⟨rfl, rfl, rfl⟩
    · rintro ⟨-, habs, hparts⟩
      exact congrArg Except.ok (PurePath.ext habs.symm hparts.symm)

theorem resolved_resolve (h : p.resolve cwd = .ok q) : q.Resolved := by
  obtain ⟨-, habs, hparts⟩ := resolve_eq_ok.mp h
  refine ⟨habs, fun hmem => ?_⟩
  rw [hparts] at hmem
  exact (mem_collapse hmem).2 rfl

/-- A resolved path resolves to itself. -/
theorem resolve_of_resolved (hp : p.Resolved) (h : p.resolve cwd = .ok q) : q = p := by
  obtain ⟨-, habs, hparts⟩ := resolve_eq_ok.mp h
  rw [if_pos hp.1, collapse_of_notMem hp.2] at hparts
  exact PurePath.ext (habs.trans hp.1.symm) hparts

theorem forM_append_eq_ok {α ε : Type} {f : α → Except ε Unit} {a b : List α} :
    (a ++ b).forM f = .ok () ↔ a.forM f = .ok () ∧ b.forM f = .ok () := by
  induction a with
  | nil => simp [pure, Except.pure]
  | cons x a ih =>
    change (f x >>= fun _ => (a ++ b).forM f) = .ok () ↔ (f x >>= fun _ => a.forM f) = .ok () ∧ _
    cases f x with
    | error exc => simp [bind, Except.bind]
    | ok _ => exact ih

theorem div_parts (hq : q.isAbsolute = false) : (p.div q).parts = p.parts ++ q.parts := by
  rw [div, hq]
  rfl

theorem div_isAbsolute (hq : q.isAbsolute = false) : (p.div q).isAbsolute = p.isAbsolute := by
  rw [div, hq]
  rfl

/-- A relative path without `..` stands below whatever the path before it resolves to. -/
theorem resolve_div (hq : q.isAbsolute = false) (hdots : PARDIR ∉ q.parts) :
    (p.div q).resolve cwd = .ok r ↔
      ∃ b, p.resolve cwd = .ok b ∧ q.parts.forM lstat = .ok () ∧ r.isAbsolute = true ∧
        r.parts = b.parts ++ q.parts := by
  have hcollapse : collapse (if (p.div q).isAbsolute then (p.div q).parts
      else cwd.parts ++ (p.div q).parts)
        = collapse (if p.isAbsolute then p.parts else cwd.parts ++ p.parts) ++ q.parts := by
    rw [div_isAbsolute hq, div_parts hq]
    split
    · exact collapse_append_of_notMem _ _ hdots
    · rw [← List.append_assoc]
      exact collapse_append_of_notMem _ _ hdots
  rw [resolve_eq_ok, hcollapse, div_parts hq, forM_append_eq_ok]
  constructor
  · rintro ⟨⟨hp, hstat⟩, habs, hparts⟩
    refine ⟨⟨true, _, ?_⟩, resolve_eq_ok.mpr ⟨hp, rfl, rfl⟩, hstat, habs, hparts⟩
    intro part hmem
    exact r.isPart part (hparts ▸ List.mem_append_left _ hmem)
  · rintro ⟨b, hb, hstat, habs, hparts⟩
    obtain ⟨hp, -, hbparts⟩ := resolve_eq_ok.mp hb
    exact ⟨⟨hp, hstat⟩, habs, by rw [hparts, hbparts]⟩

theorem isRelativeTo_iff : p.isRelativeTo q = true ↔
    p.isAbsolute = q.isAbsolute ∧ q.parts <+: p.parts := by
  simp [isRelativeTo]

/-- A part alone is a relative path. -/
theorem parse_part {part : Str} (h : IsPart part) : parse part = ⟨false, [part], by simpa using h⟩ := by
  obtain ⟨hnil, hdot, hsep⟩ := h
  apply PurePath.ext
  · cases part with
    | nil => exact absurd rfl hnil
    | cons c part =>
      have hc : c ≠ SEP := fun heq => hsep (heq ▸ List.mem_cons_self)
      simpa [parse] using hc
  · simp [parse, List.splitOn_eq_singleton hsep, hnil, hdot]

end PurePath

end Py
