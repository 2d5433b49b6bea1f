import Mathlib.Data.List.Infix

/-!
# Append-only logs whose writes can be cut off

What a log is for: it holds the items that have been committed, and the writer is told the names of
items it may rely on (`Log`). A write adds items and acknowledges some of them. It can be cut off,
which commits only a part of them, acknowledges nothing and may leave the end of the log damaged. A
damaged log takes nothing more until it is repaired.

Over any run the committed items only grow, and every acknowledged name stays the name of one of
them (`Run.exists_new`, `Run.acknowledged`). A system keeps both as soon as each of its steps is one of
these (`Simulates.run`).
-/

namespace DurableLog

variable {α β σ ι : Type}

structure Log (α : Type) where
  committed : List α
  damaged : Bool

/-- One step, with the names it acknowledges. -/
inductive Step (name : α → β) : Log α → List β → Log α → Prop
  | write {items new acknowledged} (h : acknowledged.Sublist (new.map name)) :
      Step name ⟨items, false⟩ acknowledged ⟨items ++ new, false⟩
  | cut {items new damaged} : Step name ⟨items, false⟩ [] ⟨items ++ new, damaged⟩
  | idle {log} : Step name log [] log
  | repair {items damaged} : Step name ⟨items, damaged⟩ [] ⟨items, false⟩

inductive Run (name : α → β) : Log α → List β → Log α → Prop
  | nil {log} : Run name log [] log
  | cons {first names middle names' last} (head : Step name first names middle)
      (tail : Run name middle names' last) : Run name first (names ++ names') last

variable {name : α → β} {log log' : Log α} {names : List β}

/-- What a step commits, and that it acknowledges nothing else. -/
theorem Step.exists_new (h : Step name log names log') :
    ∃ new, log'.committed = log.committed ++ new ∧ names.Sublist (new.map name) := by
  cases h with
  | write h => exact ⟨_, rfl, h⟩
  | @cut items new damaged => exact ⟨new, rfl, List.nil_sublist _⟩
  | idle => exact ⟨[], (List.append_nil _).symm, List.Sublist.refl _⟩
  | repair => exact ⟨[], (List.append_nil _).symm, List.Sublist.refl _⟩

theorem Run.exists_new (h : Run name log names log') :
    ∃ new, log'.committed = log.committed ++ new ∧ names.Sublist (new.map name) := by
  induction h with
  | nil => exact ⟨[], (List.append_nil _).symm, List.Sublist.refl _⟩
  | cons head _ ih =>
    obtain ⟨new, hnew, hnames⟩ := head.exists_new
    obtain ⟨new', hnew', hnames'⟩ := ih
    refine ⟨new ++ new', ?_, ?_⟩
    · rw [hnew', hnew, List.append_assoc]
    · rw [List.map_append]
      exact hnames.append hnames'

theorem Run.acknowledged (h : Run name log names log') (hempty : log.committed = []) :
    names.Sublist (log'.committed.map name) := by
  obtain ⟨new, hnew, hnames⟩ := h.exists_new
  rw [hnew, hempty]
  exact hnames

/-! ## Systems that are such logs -/

/-- A run of a system whose steps return a state and what they acknowledge. -/
def runAll (step : σ → ι → σ × List β) : σ → List ι → σ × List β
  | state, [] => (state, [])
  | state, input :: inputs =>
    let next := step state input
    let rest := runAll step next.1 inputs
    (rest.1, next.2 ++ rest.2)

/-- Every step of the system is one of the log that its state holds. -/
def Simulates (name : α → β) (step : σ → ι → σ × List β) (Holds : σ → Log α → Prop) : Prop :=
  ∀ state log, Holds state log → ∀ input, ∃ log', Holds (step state input).1 log' ∧
    Step name log (step state input).2 log'

theorem Simulates.run {step : σ → ι → σ × List β} {Holds : σ → Log α → Prop}
    (h : Simulates name step Holds) {state : σ} (hstate : Holds state log) (inputs : List ι) :
    ∃ log', Holds (runAll step state inputs).1 log' ∧
      Run name log (runAll step state inputs).2 log' := by
  induction inputs generalizing state log with
  | nil => exact ⟨log, hstate, .nil⟩
  | cons input inputs ih =>
    obtain ⟨middle, hmiddle, hstep⟩ := h state log hstate input
    obtain ⟨last, hlast, hrun⟩ := ih hmiddle
    exact ⟨last, hlast, .cons hstep hrun⟩

end DurableLog
