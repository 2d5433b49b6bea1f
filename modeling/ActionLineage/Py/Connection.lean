import ActionLineage.Py.Effects

/-!
# Database connections

A connection opens a transaction at the first statement that changes rows, and only a commit writes
what is in the transaction to the file. Any statement may fail, and a statement that fails changes
nothing: `fault` says which statements of a run fail, and with what.

`Within` is the rule of pre- and postconditions for a block that runs inside a transaction: the file
stays as it is, and what is said is about the rows the block sees. `Outside` is the rule for a block
that opens none: what it does is in the file at once.
-/

namespace Py

structure Connection (σ : Type) where
  /-- What the file holds. -/
  committed : σ
  /-- What the open transaction has. -/
  pending : Option σ := none
  /-- The statements so far. -/
  statements : ℕ := 0

namespace Connection

variable {ε σ α β : Type}

def current (c : Connection σ) : σ := c.pending.getD c.committed

section Commands

variable (fault : ℕ → Option ε)

/-- One statement more; it may fail. -/
def statement : Raising ε (Connection σ) Unit := fun c =>
  ((fault c.statements).elim (.ok ()) .error, { c with statements := c.statements + 1 })

/-- A statement that reads. -/
def select (f : σ → α) : Raising ε (Connection σ) α := do
  statement fault
  fun c => (.ok (f c.current), c)

/-- A statement that changes rows. -/
def execute (f : σ → Except ε σ) : Raising ε (Connection σ) Unit := do
  Raising.modify fun c => { c with pending := some c.current }
  statement fault
  fun c =>
    match f c.current with
    | .ok s => (.ok (), { c with pending := some s })
    | .error e => (.error e, c)

/-- A statement that changes anything else: outside a transaction it is written at once. -/
def define (f : σ → σ) : Raising ε (Connection σ) Unit := do
  statement fault
  Raising.modify fun c =>
    match c.pending with
    | some s => { c with pending := some (f s) }
    | none => { c with committed := f c.committed }

def commit : Raising ε (Connection σ) Unit := do
  statement fault
  Raising.modify fun c => { c with committed := c.current, pending := none }

/-- The statements of a script, one by one. -/
def script : List (σ → σ) → Raising ε (Connection σ) Unit
  | [] => pure ()
  | f :: fs => do
    define fault f
    script fs

/-- `connection.executescript`: an open transaction is committed first. -/
def executeScript (fs : List (σ → σ)) : Raising ε (Connection σ) Unit := do
  let c ← Raising.read
  if c.pending.isSome then commit fault
  script fault fs

/-- `with connection:` commits after the block, and drops the transaction where the block or the
commit raises. -/
def transaction (block : Raising ε (Connection σ) α) : Raising ε (Connection σ) α := fun c =>
  match (do let a ← block; commit fault; pure a : Raising ε (Connection σ) α) c with
  | (.ok a, c') => (.ok a, c')
  | (.error e, c') => (.error e, { c' with pending := none })

variable {fault}

theorem statement_run (fault : ℕ → Option ε) (c : Connection σ) :
    (∃ e, statement fault c = (.error e, { c with statements := c.statements + 1 }))
      ∨ statement fault c = (.ok (), { c with statements := c.statements + 1 }) := by
  unfold statement
  cases fault c.statements with
  | some e => exact Or.inl ⟨e, rfl⟩
  | none => exact Or.inr rfl

theorem commit_of_fault {c : Connection σ} {e : ε} (h : fault c.statements = some e) :
    commit fault c = (.error e, { c with statements := c.statements + 1 }) := by
  refine Raising.bind_of_error ?_
  unfold statement
  rw [h]
  rfl

theorem commit_of_none {c : Connection σ} (h : fault c.statements = none) :
    commit fault c = (.ok (), ⟨c.current, none, c.statements + 1⟩) := by
  refine (Raising.bind_of_ok (a := ()) (t := { c with statements := c.statements + 1 }) ?_).trans rfl
  unfold statement
  rw [h]
  rfl

end Commands

/-! ## Blocks inside a transaction -/

/-- While the file holds `s`, a block that sees rows of which `P` holds leaves the file alone; when
it returns `a`, `Q a` holds of the rows it leaves. -/
def Within (s : σ) (P : σ → Prop) (x : Raising ε (Connection σ) α) (Q : α → σ → Prop) : Prop :=
  ∀ c, c.committed = s → P c.current →
    (x c).2.committed = s ∧ ∀ a, (x c).1 = .ok a → Q a (x c).2.current

namespace Within

variable {fault : ℕ → Option ε} {s : σ} {P : σ → Prop} {Q : α → σ → Prop}
  {x : Raising ε (Connection σ) α}

/-- The rows before the block can be named. -/
theorem of_forall (h : ∀ d, P d → Within s (· = d) x Q) : Within s P x Q :=
  fun c hc hP => h c.current hP c hc rfl

theorem mono {Q' : α → σ → Prop} (h : Within s P x Q) (hQ : ∀ a d, Q a d → Q' a d) :
    Within s P x Q' :=
  fun c hc hP => ⟨(h c hc hP).1, fun a ha => hQ a _ ((h c hc hP).2 a ha)⟩

theorem ret {a : α} (h : ∀ d, P d → Q a d) :
    Within s P (pure a : Raising ε (Connection σ) α) Q := by
  intro c hc hP
  refine ⟨hc, fun b hb => ?_⟩
  cases hb
  exact h _ hP

theorem ofResult {y : Except ε α} (h : ∀ a d, y = .ok a → P d → Q a d) :
    Within s P (Raising.ofResult y) Q :=
  fun c hc hP => ⟨hc, fun a ha => h a c.current ha hP⟩

theorem bind {f : α → Raising ε (Connection σ) β} {R : β → σ → Prop} (hx : Within s P x Q)
    (hf : ∀ a, Within s (Q a) (f a) R) : Within s P (x >>= f) R := by
  intro c hc hP
  obtain ⟨hkeep, hpost⟩ := hx c hc hP
  rcases hrun : x c with ⟨result, c'⟩
  rw [hrun] at hkeep hpost
  cases result with
  | error e =>
    rw [Raising.bind_of_error hrun]
    exact ⟨hkeep, fun _ h => nomatch h⟩
  | ok a =>
    rw [Raising.bind_of_ok hrun]
    exact hf a c' hkeep (hpost a rfl)

/-- What a computation without the connection returned can be used after it. -/
theorem ofResult_bind {y : Except ε β} {f : β → Raising ε (Connection σ) α}
    (h : ∀ b, y = .ok b → Within s P (f b) Q) : Within s P (Raising.ofResult y >>= f) Q := by
  intro c hc hP
  cases y with
  | error e => exact ⟨hc, fun _ h => nomatch h⟩
  | ok b => exact h b rfl c hc hP

theorem statement : Within s P (statement fault) fun _ => P := by
  intro c hc hP
  exact ⟨hc, fun _ _ => hP⟩

theorem select (f : σ → β) : Within s P (select fault f) fun b d => P d ∧ b = f d := by
  refine bind statement fun _ => ?_
  intro c hc hP
  refine ⟨hc, fun b hb => ?_⟩
  cases hb
  exact ⟨hP, rfl⟩

theorem execute {f : σ → Except ε σ} {Q : σ → Prop} (h : ∀ d d', P d → f d = .ok d' → Q d') :
    Within s P (execute fault f) fun _ => Q := by
  have hopen : Within s P (Raising.modify fun c => { c with pending := some c.current } :
      Raising ε (Connection σ) Unit) fun _ => P := fun c hc hP => ⟨hc, fun _ _ => hP⟩
  refine bind hopen fun _ => bind statement fun _ => ?_
  intro c hc hP
  dsimp only
  cases hf : f c.current with
  | error e => exact ⟨hc, fun _ h => nomatch h⟩
  | ok d => exact ⟨hc, fun _ _ => h c.current d hP hf⟩

/-- What a transaction that raises leaves, and one that returns. -/
theorem transaction (h : Within s P x Q) {c : Connection σ} (hc : c.committed = s)
    (hP : P c.current) :
    (∀ e, (transaction fault x c).1 = .error e → (transaction fault x c).2.committed = s) ∧
    ∀ a, (transaction fault x c).1 = .ok a → Q a (transaction fault x c).2.committed := by
  obtain ⟨hkeep, hpost⟩ := h c hc hP
  unfold Connection.transaction
  rcases hrun : x c with ⟨result, c'⟩
  rw [hrun] at hkeep hpost
  cases result with
  | error e =>
    rw [Raising.bind_of_error hrun]
    exact ⟨fun _ _ => hkeep, fun _ h => nomatch h⟩
  | ok a =>
    rw [Raising.bind_of_ok hrun]
    -- the commit is the last statement that can fail
    cases hcommit : fault c'.statements with
    | some e =>
      rw [Raising.bind_of_error (commit_of_fault hcommit)]
      exact ⟨fun _ _ => hkeep, fun _ h => nomatch h⟩
    | none =>
      rw [Raising.bind_of_ok (commit_of_none hcommit)]
      refine ⟨fun _ h => (nomatch h), fun b hb => ?_⟩
      cases hb
      exact hpost a rfl

end Within

/-! ## Blocks outside a transaction -/

/-- While no transaction is open and `P` holds of the file, a block opens none; `E` holds of the file
when it raises, and `Q a` when it returns `a`. -/
def Outside (P : σ → Prop) (x : Raising ε (Connection σ) α) (E : σ → Prop) (Q : α → σ → Prop) :
    Prop :=
  ∀ c, c.pending = none → P c.committed →
    (x c).2.pending = none ∧ (∀ e, (x c).1 = .error e → E (x c).2.committed) ∧
      ∀ a, (x c).1 = .ok a → Q a (x c).2.committed

namespace Outside

variable {fault : ℕ → Option ε} {P E : σ → Prop} {Q : α → σ → Prop}
  {x : Raising ε (Connection σ) α}

theorem bind {f : α → Raising ε (Connection σ) β} {R : β → σ → Prop} (hx : Outside P x E Q)
    (hf : ∀ a, Outside (Q a) (f a) E R) : Outside P (x >>= f) E R := by
  intro c hc hP
  obtain ⟨hopen, hraise, hpost⟩ := hx c hc hP
  rcases hrun : x c with ⟨result, c'⟩
  rw [hrun] at hopen hraise hpost
  cases result with
  | error e =>
    rw [Raising.bind_of_error hrun]
    exact ⟨hopen, fun _ _ => hraise e rfl, fun _ h => (by cases h)⟩
  | ok a =>
    rw [Raising.bind_of_ok hrun]
    exact hf a c' hopen (hpost a rfl)

theorem statement (hE : ∀ d, P d → E d) : Outside P (statement fault) E fun _ => P :=
  fun _ hc hP => ⟨hc, fun _ _ => hE _ hP, fun _ _ => hP⟩

theorem define {f : σ → σ} {Q : σ → Prop} (hE : ∀ d, P d → E d) (hQ : ∀ d, P d → Q (f d)) :
    Outside P (define fault f) E fun _ => Q := by
  refine bind (statement hE) fun _ => ?_
  intro c hc hP
  rw [Raising.modify_apply]
  dsimp only
  rw [hc]
  exact ⟨rfl, fun _ h => (by cases h), fun _ _ => hQ _ hP⟩

/-- The statements of a script that each keep what holds of the file. -/
theorem executeScript {fs : List (σ → σ)} (hE : ∀ d, P d → E d)
    (hfs : ∀ f ∈ fs, ∀ d, P d → P (f d)) : Outside P (executeScript fault fs) E fun _ => P := by
  have hscript : Outside P (script fault fs) E fun _ => P := by
    induction fs with
    | nil => exact fun _ hc hP => ⟨hc, fun _ h => (by cases h), fun _ _ => hP⟩
    | cons f fs ih =>
      refine bind (define hE (hfs f List.mem_cons_self)) fun _ => ih fun g hg => ?_
      exact hfs g (List.mem_cons_of_mem f hg)
  intro c hc hP
  have hnone : Connection.executeScript fault fs c = script fault fs c := by
    unfold Connection.executeScript
    rw [Raising.read_bind, hc]
    rfl
  rw [hnone]
  exact hscript c hc hP

end Outside

end Connection

end Py
