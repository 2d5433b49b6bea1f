import Mathlib

/-!
# Code with state that can raise

`Raising ε σ` is a Python block over a mutable object: an exception leaves the object as it is when
the exception is raised. The lemmas take a run apart at a sequencing point.
-/

namespace Py

/-- A block that reads and writes `σ` and may raise `ε`. -/
def Raising (ε σ α : Type) : Type := σ → Except ε α × σ

/-- A run that was computed and did not raise. -/
theorem exists_ok_of_isSome {ε σ α : Type} {x : Except ε α × σ}
    (h : x.1.toOption.isSome = true) : ∃ a, x = (.ok a, x.2) := by
  obtain ⟨result, s⟩ := x
  cases result with
  | error e => cases h
  | ok a => exact ⟨a, rfl⟩

namespace Raising

variable {ε σ α β : Type}

instance : Monad (Raising ε σ) where
  pure a := fun s => (.ok a, s)
  bind x f := fun s =>
    match x s with
    | (.ok a, t) => f a t
    | (.error e, t) => (.error e, t)

/-- A computation that leaves the object alone. -/
def ofResult (x : Except ε α) : Raising ε σ α := fun s => (x, s)

/-- The object as it is. -/
def read : Raising ε σ σ := fun s => (.ok s, s)

def modify (f : σ → σ) : Raising ε σ Unit := fun s => (.ok (), f s)

theorem bind_eq_ok {x : Raising ε σ α} {f : α → Raising ε σ β} {s s' : σ} {b : β} :
    (x >>= f) s = (.ok b, s') ↔ ∃ a t, x s = (.ok a, t) ∧ f a t = (.ok b, s') := by
  simp only [bind]
  obtain ⟨result, t⟩ := x s
  cases result with
  | error e => simp
  | ok a => simp

theorem bind_eq_error {x : Raising ε σ α} {f : α → Raising ε σ β} {s s' : σ} {e : ε} :
    (x >>= f) s = (.error e, s') ↔
      x s = (.error e, s') ∨ ∃ a t, x s = (.ok a, t) ∧ f a t = (.error e, s') := by
  simp only [bind]
  obtain ⟨result, t⟩ := x s
  cases result with
  | error e' => simp
  | ok a => simp

theorem bind_of_ok {x : Raising ε σ α} {f : α → Raising ε σ β} {s t : σ} {a : α}
    (h : x s = (.ok a, t)) : (x >>= f) s = f a t := by
  simp only [bind, h]

theorem bind_of_error {x : Raising ε σ α} {f : α → Raising ε σ β} {s t : σ} {e : ε}
    (h : x s = (.error e, t)) : (x >>= f) s = (.error e, t) := by
  simp only [bind, h]

@[simp] theorem ofResult_apply (x : Except ε α) (s : σ) : ofResult x s = (x, s) := rfl

@[simp] theorem modify_apply (f : σ → σ) (s : σ) :
    (modify f : Raising ε σ Unit) s = (.ok (), f s) := rfl

@[simp] theorem pure_apply (a : α) (s : σ) : (pure a : Raising ε σ α) s = (.ok a, s) := rfl

@[simp] theorem read_bind (f : σ → Raising ε σ β) (s : σ) : (read >>= f) s = f s s := rfl

@[simp] theorem modify_bind (g : σ → σ) (f : Unit → Raising ε σ β) (s : σ) :
    (modify g >>= f) s = f () (g s) := rfl

theorem ofResult_bind_eq_ok {x : Except ε α} {f : α → Raising ε σ β} {s s' : σ} {b : β} :
    (ofResult x >>= f) s = (.ok b, s') ↔ ∃ a, x = .ok a ∧ f a s = (.ok b, s') := by
  cases x with
  | error e => simp [bind_of_error (ofResult_apply _ s)]
  | ok a => simp [bind_of_ok (ofResult_apply _ s)]

theorem ofResult_bind_eq_error {x : Except ε α} {f : α → Raising ε σ β} {s s' : σ} {e : ε} :
    (ofResult x >>= f) s = (.error e, s') ↔
      (x = .error e ∧ s = s') ∨ ∃ a, x = .ok a ∧ f a s = (.error e, s') := by
  cases x with
  | error e => simp [bind_of_error (ofResult_apply _ s)]
  | ok a => simp [bind_of_ok (ofResult_apply _ s)]

/-- The blocks answer alike and keep the objects related. -/
def Alike (R : σ → σ → Prop) (x x' : Raising ε σ α) : Prop :=
  ∀ s s', R s s' → (x s).1 = (x' s').1 ∧ R (x s).2 (x' s').2

theorem alike_ofResult (R : σ → σ → Prop) (x : Except ε α) : Alike R (ofResult x) (ofResult x) :=
  fun _ _ h => ⟨rfl, h⟩

theorem alike_pure (R : σ → σ → Prop) (a : α) : Alike R (pure a : Raising ε σ α) (pure a) :=
  fun _ _ h => ⟨rfl, h⟩

theorem Alike.bind {R : σ → σ → Prop} {x x' : Raising ε σ α} {f f' : α → Raising ε σ β}
    (h : Alike R x x') (hf : ∀ a, Alike R (f a) (f' a)) : Alike R (x >>= f) (x' >>= f') := by
  intro s s' hs
  obtain ⟨hanswer, hstates⟩ := h s s' hs
  cases hx : x s with
  | mk result t =>
    cases hx' : x' s' with
    | mk result' t' =>
      rw [hx, hx'] at hanswer hstates
      obtain rfl : result = result' := hanswer
      cases result with
      | error e =>
        rw [bind_of_error hx, bind_of_error hx']
        exact ⟨rfl, hstates⟩
      | ok a =>
        rw [bind_of_ok hx, bind_of_ok hx']
        exact hf a t t' hstates

end Raising

end Py
