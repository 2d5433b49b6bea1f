import ActionLineage.Domain.Redaction
import ActionLineage.Reference

/-!
# Redaction of arbitrary objects, and what it cannot depend on

`redactObject` is the walk of `redactValue` on whatever Python passes: a mapping may have keys that
are no strings, and a value may be of a type that redaction refuses. The budget of the pass is
mutable, so it is kept when the walk raises. On JSON-shaped values the two walks agree
(`run_redactObject`).

A sensitive position is left before its value is looked at, so neither the result nor the budget
depends on it (`redaction_noninterference`).
-/

namespace ActionLineage

open Py

/-! ## Objects -/

inductive PyKey
  | str (s : Str)
  | other (typeName : String)

inductive PyObject
  | none
  | bool (b : Bool)
  | int (i : Int)
  | float (x : Binary64)
  | str (s : Str)
  | bytes (b : Bytes)
  | sequence (items : List PyObject)
  | mapping (items : List (PyKey × PyObject))
  /-- Neither of these: `bytearray`, `set`, `datetime`, … -/
  | other (typeName : String)

namespace PyObject

@[elab_as_elim, induction_eliminator]
theorem induct {motive : PyObject → Prop} (none : motive .none) (bool : ∀ b, motive (.bool b))
    (int : ∀ i, motive (.int i)) (float : ∀ x, motive (.float x)) (str : ∀ s, motive (.str s))
    (bytes : ∀ b, motive (.bytes b))
    (sequence : ∀ items, (∀ x ∈ items, motive x) → motive (.sequence items))
    (mapping : ∀ items, (∀ p ∈ items, motive p.2) → motive (.mapping items))
    (other : ∀ t, motive (.other t)) (v : PyObject) : motive v := by
  refine @PyObject.rec motive (fun xs => ∀ x ∈ xs, motive x)
    (fun kvs => ∀ p ∈ kvs, motive p.2) (fun p => motive p.2)
    none bool int float str bytes sequence mapping other ?_ ?_ ?_ ?_ ?_ v
  · simp
  · intro x xs hx hxs y hy
    rcases List.mem_cons.mp hy with rfl | hy
    · exact hx
    · exact hxs y hy
  · simp
  · intro p kvs hp hkvs q hq
    rcases List.mem_cons.mp hq with rfl | hq
    · exact hp
    · exact hkvs q hq
  · intro k v hv
    exact hv

end PyObject

mutual

/-- A JSON-shaped value as an object. -/
def PyObject.ofValue : Value → PyObject
  | .null => .none
  | .bool b => .bool b
  | .int i => .int i
  | .float x => .float x
  | .str s => .str s
  | .bytes b => .bytes b
  | .list xs => .sequence (PyObject.ofItems xs)
  | .dict kvs => .mapping (PyObject.ofMembers kvs)

def PyObject.ofItems : List Value → List PyObject
  | [] => []
  | x :: xs => PyObject.ofValue x :: PyObject.ofItems xs

def PyObject.ofMembers : Obj → List (PyKey × PyObject)
  | [] => []
  | (k, v) :: kvs => (.str k, PyObject.ofValue v) :: PyObject.ofMembers kvs

end

/-! ## The walk -/

/-- A step of a redaction pass: what it returns or raises, and the budget it leaves. -/
def Redacting (α : Type) : Type := CaptureBudget → Except PyError α × CaptureBudget

namespace Redacting

variable {α β : Type}

instance : Monad Redacting where
  pure a budget := (.ok a, budget)
  bind x f budget :=
    match x budget with
    | (.ok a, budget) => f a budget
    | (.error exc, budget) => (.error exc, budget)

/-- A step that leaves the budget alone. -/
def lift (x : Except PyError α) : Redacting α := fun budget => (x, budget)

/-- `record_capture(value, budget)`: a refused capture is not recorded. -/
def recordCapture (value : Value) : Redacting Unit := fun budget =>
  match ActionLineage.recordCapture value budget with
  | .ok budget => (.ok (), budget)
  | .error exc => (.error exc, budget)

/-- The step without the budget of a failed one. -/
def run (x : Redacting α) (budget : CaptureBudget) : Except PyError (α × CaptureBudget) :=
  (x budget).1.map fun a => (a, (x budget).2)

@[simp] theorem run_pure (a : α) (budget : CaptureBudget) :
    (pure a : Redacting α).run budget = .ok (a, budget) := rfl

theorem run_bind (x : Redacting α) (f : α → Redacting β) (budget : CaptureBudget) :
    (x >>= f).run budget = x.run budget >>= fun r => (f r.1).run r.2 := by
  show Except.map _ ((x >>= f) budget).1 = _
  simp only [run, bind, Except.bind]
  rcases x budget with ⟨result, after⟩
  cases result <;> rfl

@[simp] theorem run_lift_bind (x : Except PyError α) (f : α → Redacting β)
    (budget : CaptureBudget) :
    (lift x >>= f).run budget = x >>= fun a => (f a).run budget := by
  rw [run_bind]
  cases x <;> rfl

@[simp] theorem run_recordCapture_bind (value : Value) (f : Unit → Redacting β)
    (budget : CaptureBudget) :
    (recordCapture value >>= f).run budget
      = ActionLineage.recordCapture value budget >>= fun after => (f ()).run after := by
  rw [run_bind]
  unfold run recordCapture
  cases ActionLineage.recordCapture value budget <;> rfl

@[simp] theorem run_ite (c : Prop) [Decidable c] (x y : Redacting α) (budget : CaptureBudget) :
    (if c then x else y).run budget = if c then x.run budget else y.run budget := by
  split <;> rfl

end Redacting

section Redact

variable (P : Platform)

mutual

/-- `redact_value`. -/
def redactObject (policy : RedactionPolicy) (path : Path) (depth : Nat) (value : PyObject) :
    Redacting Value :=
  if isSensitive P path policy then pure (redactedMarker (lit "sensitive"))
  else do
    .lift (depthOk policy depth)
    match value with
    | .str s => do
      let redacted ← .lift (redactText policy s)
      if isCaptureExemptPath path policy then pure (.str redacted)
      else do
        let captured ← .lift (captureString P policy.maxStringLength redacted)
        .recordCapture captured
        pure captured
    | .bytes b => do
      let captured ← .lift (captureBytes P policy.maxBytesLength b)
      .recordCapture captured
      pure captured
    | .float x => do
      .lift (require x.isFinite (.redactionError "JSON numbers must be finite"))
      pure (.float x)
    | .none => pure .null
    | .bool b => pure (.bool b)
    | .int i => pure (.int i)
    | .mapping items => do
      .lift (require (decide ((items.length : Int) ≤ policy.maxObjectMembers))
        (.redactionError
          ("JSON object exceeds " ++ toString policy.maxObjectMembers ++ " members")))
      let redacted ← redactObjectMembers policy path (depth + 1) items
      pure (.dict redacted)
    | .sequence items => do
      .lift (require (decide ((items.length : Int) ≤ policy.maxArrayLength))
        (.redactionError ("JSON array exceeds " ++ toString policy.maxArrayLength ++ " items")))
      let redacted ← redactObjectItems policy path (depth + 1) items
      pure (.list redacted)
    | .other typeName =>
      .lift (.error (.redactionError ("unsupported value type for redaction: " ++ typeName)))

def redactObjectMembers (policy : RedactionPolicy) (path : Path) (depth : Nat)
    (items : List (PyKey × PyObject)) : Redacting Obj :=
  match items with
  | [] => pure []
  | (.str rawKey, rawChild) :: items => do
    let child ← redactObject policy (path ++ [P.lower rawKey]) depth rawChild
    let rest ← redactObjectMembers policy path depth items
    pure ((rawKey, child) :: rest)
  | (.other _, _) :: _ =>
    .lift (.error (.redactionError "redaction only supports string object keys"))

def redactObjectItems (policy : RedactionPolicy) (path : Path) (depth : Nat)
    (items : List PyObject) : Redacting (List Value) :=
  match items with
  | [] => pure []
  | child :: items => do
    let child ← redactObject policy path depth child
    let rest ← redactObjectItems policy path depth items
    pure (child :: rest)

end

/-- `RedactionPolicy.apply`. -/
def RedactionPolicy.applyObject (policy : RedactionPolicy) (value : PyObject) :
    Except PyError Value :=
  let result := do
    let budget ← captureBudget policy
    (redactObject P policy [] 0 value budget).1
  match result with
  | .ok v => .ok v
  | .error _ => .error (.redactionError "redaction failed before persistence")

end Redact

variable {P : Platform}

/-! ## JSON-shaped values -/

theorem redactObject_sensitive {policy : RedactionPolicy} {path : Path}
    (h : isSensitive P path policy = true) (depth : Nat) (value : PyObject) :
    redactObject P policy path depth value = pure (redactedMarker (lit "sensitive")) := by
  unfold redactObject
  rw [if_pos h]

theorem length_ofItems (xs : List Value) : (PyObject.ofItems xs).length = xs.length := by
  induction xs with
  | nil => rfl
  | cons x xs ih => simp [PyObject.ofItems, ih]

theorem length_ofMembers (kvs : Obj) : (PyObject.ofMembers kvs).length = kvs.length := by
  induction kvs with
  | nil => rfl
  | cons p kvs ih => simp [PyObject.ofMembers, ih]

theorem run_redactObjectItems {policy : RedactionPolicy} {path : Path} {xs : List Value}
    (hxs : ∀ x ∈ xs, ∀ depth budget, (redactObject P policy path depth (.ofValue x)).run budget
      = redactValue P policy path depth budget x) (depth : Nat) (budget : CaptureBudget) :
    (redactObjectItems P policy path depth (PyObject.ofItems xs)).run budget
      = redactItems P policy path depth budget xs := by
  induction xs generalizing budget with
  | nil => rfl
  | cons x xs ih =>
    have hrest := ih fun y hy => hxs y (by simp [hy])
    unfold PyObject.ofItems redactObjectItems redactItems
    simp only [Redacting.run_bind, Redacting.run_pure, hxs x (by simp), hrest]

theorem run_redactObjectMembers {policy : RedactionPolicy} {path : Path} {kvs : Obj}
    (hkvs : ∀ p ∈ kvs, ∀ path depth budget,
      (redactObject P policy path depth (.ofValue p.2)).run budget
        = redactValue P policy path depth budget p.2) (depth : Nat) (budget : CaptureBudget) :
    (redactObjectMembers P policy path depth (PyObject.ofMembers kvs)).run budget
      = redactMembers P policy path depth budget kvs := by
  induction kvs generalizing budget with
  | nil => rfl
  | cons p kvs ih =>
    obtain ⟨k, v⟩ := p
    have hv := hkvs (k, v) (by simp)
    have hrest := ih fun q hq => hkvs q (by simp [hq])
    unfold PyObject.ofMembers redactObjectMembers redactMembers
    simp only [Redacting.run_bind, Redacting.run_pure, hv, hrest]

/-- On JSON-shaped values the walk is `redactValue`. -/
theorem run_redactObject (policy : RedactionPolicy) (path : Path) (depth : Nat)
    (budget : CaptureBudget) (v : Value) :
    (redactObject P policy path depth (.ofValue v)).run budget
      = redactValue P policy path depth budget v := by
  induction v generalizing path depth budget with
  | null | bool | int | float | str | bytes =>
    unfold redactObject redactValue
    simp [PyObject.ofValue, redactStr]
  | list xs ih =>
    have hitems := run_redactObjectItems fun x hx d b => ih x hx path d b
    have hbind : ∀ f : List Value → Redacting Value,
        (redactObjectItems P policy path (depth + 1) (PyObject.ofItems xs) >>= f).run budget
          = redactItems P policy path (depth + 1) budget xs >>= fun r => (f r.1).run r.2 := by
      intro f
      rw [Redacting.run_bind, hitems]
    unfold redactObject redactValue
    simp [PyObject.ofValue, length_ofItems, hbind]
  | dict kvs ih =>
    have hmembers := @run_redactObjectMembers P policy path kvs fun p hp q d b => ih p hp q d b
    have hbind : ∀ f : Obj → Redacting Value,
        (redactObjectMembers P policy path (depth + 1) (PyObject.ofMembers kvs) >>= f).run budget
          = redactMembers P policy path (depth + 1) budget kvs >>= fun r => (f r.1).run r.2 := by
      intro f
      rw [Redacting.run_bind, hmembers]
    unfold redactObject redactValue
    simp [PyObject.ofValue, length_ofMembers, hbind]

/-- On JSON-shaped values the two policies' `apply` are one. -/
theorem applyObject_ofValue (policy : RedactionPolicy) (v : Value) :
    policy.applyObject P (.ofValue v) = policy.apply P v := by
  unfold RedactionPolicy.applyObject RedactionPolicy.apply
  cases captureBudget policy with
  | error exc => rfl
  | ok budget =>
    have hrun := run_redactObject (P := P) policy [] 0 budget v
    simp only [bind, Except.bind, ← hrun, Redacting.run]
    cases (redactObject P policy [] 0 (.ofValue v) budget).1 <;> rfl

/-! ## Noninterference -/

mutual

/-- The same object, but for what is beneath sensitive names and paths. -/
inductive SameOutside (P : Platform) (policy : RedactionPolicy) :
    Path → PyObject → PyObject → Prop
  | secret {path} (h : isSensitive P path policy = true) (v w : PyObject) :
    SameOutside P policy path v w
  | refl (path : Path) (v : PyObject) : SameOutside P policy path v v
  | sequence {path xs ys} (h : SameItems P policy path xs ys) :
    SameOutside P policy path (.sequence xs) (.sequence ys)
  | mapping {path kvs ws} (h : SameMembers P policy path kvs ws) :
    SameOutside P policy path (.mapping kvs) (.mapping ws)

inductive SameItems (P : Platform) (policy : RedactionPolicy) :
    Path → List PyObject → List PyObject → Prop
  | nil (path : Path) : SameItems P policy path [] []
  | cons {path x y xs ys} (head : SameOutside P policy path x y)
    (tail : SameItems P policy path xs ys) : SameItems P policy path (x :: xs) (y :: ys)

inductive SameMembers (P : Platform) (policy : RedactionPolicy) :
    Path → List (PyKey × PyObject) → List (PyKey × PyObject) → Prop
  | nil (path : Path) : SameMembers P policy path [] []
  | cons {path v w kvs ws} (k : Str) (head : SameOutside P policy (path ++ [P.lower k]) v w)
    (tail : SameMembers P policy path kvs ws) :
    SameMembers P policy path ((.str k, v) :: kvs) ((.str k, w) :: ws)
  | other {path kvs ws} (typeName : String) (v : PyObject)
    (tail : SameMembers P policy path kvs ws) :
    SameMembers P policy path ((.other typeName, v) :: kvs) ((.other typeName, v) :: ws)

end

theorem SameItems.length_eq {policy : RedactionPolicy} {path : Path} {xs ys : List PyObject}
    (h : SameItems P policy path xs ys) : xs.length = ys.length := by
  induction xs generalizing ys with
  | nil =>
    cases h
    rfl
  | cons x xs ih =>
    cases h with
    | cons head tail => rw [List.length_cons, List.length_cons, ih tail]

theorem SameMembers.length_eq {policy : RedactionPolicy} {path : Path}
    {kvs ws : List (PyKey × PyObject)} (h : SameMembers P policy path kvs ws) :
    kvs.length = ws.length := by
  induction kvs generalizing ws with
  | nil =>
    cases h
    rfl
  | cons p kvs ih =>
    cases h with
    | cons k head tail => rw [List.length_cons, List.length_cons, ih tail]
    | other t v tail => rw [List.length_cons, List.length_cons, ih tail]

/-- Items and members are walked the same way when each of them is. -/
theorem redactObjectItems_eq {policy : RedactionPolicy} {path : Path} {xs ys : List PyObject}
    (hxs : ∀ x ∈ xs, ∀ y depth, SameOutside P policy path x y →
      redactObject P policy path depth x = redactObject P policy path depth y)
    (h : SameItems P policy path xs ys) (depth : Nat) :
    redactObjectItems P policy path depth xs = redactObjectItems P policy path depth ys := by
  induction xs generalizing ys with
  | nil =>
    cases h
    rfl
  | cons x xs ih =>
    cases h with
    | @cons _ _ y _ ys head tail =>
      have hx := hxs x (by simp) y depth head
      have hrest := ih (fun z hz => hxs z (by simp [hz])) tail
      unfold redactObjectItems
      rw [hx, hrest]

theorem redactObjectMembers_eq {policy : RedactionPolicy} {path : Path}
    {kvs ws : List (PyKey × PyObject)}
    (hkvs : ∀ p ∈ kvs, ∀ path w depth, SameOutside P policy path p.2 w →
      redactObject P policy path depth p.2 = redactObject P policy path depth w)
    (h : SameMembers P policy path kvs ws) (depth : Nat) :
    redactObjectMembers P policy path depth kvs = redactObjectMembers P policy path depth ws := by
  induction kvs generalizing ws with
  | nil =>
    cases h
    rfl
  | cons p kvs ih =>
    cases h with
    | @cons _ v w _ ws k head tail =>
      have hv := hkvs (.str k, v) (by simp) (path ++ [P.lower k]) w depth head
      have hrest := ih (fun q hq => hkvs q (by simp [hq])) tail
      unfold redactObjectMembers
      rw [hrest]
      show redactObject P policy (path ++ [P.lower k]) depth v >>= _ = _
      rw [hv]
    | other typeName v tail =>
      unfold redactObjectMembers
      rfl

/-- The walk is the same step on both: result, error and budget. -/
theorem redactObject_eq {policy : RedactionPolicy} {path : Path} {v w : PyObject}
    (h : SameOutside P policy path v w) (depth : Nat) :
    redactObject P policy path depth v = redactObject P policy path depth w := by
  induction v generalizing path w depth with
  | sequence xs ih =>
    cases h with
    | secret hs => rw [redactObject_sensitive hs, redactObject_sensitive hs]
    | refl => rfl
    | @sequence _ _ ys h =>
      have hlen := h.length_eq
      have hitems := redactObjectItems_eq (fun x hx y d hxy => ih x hx hxy d) h (depth + 1)
      unfold redactObject
      dsimp only
      rw [hlen, hitems]
  | mapping kvs ih =>
    cases h with
    | secret hs => rw [redactObject_sensitive hs, redactObject_sensitive hs]
    | refl => rfl
    | @mapping _ _ ws h =>
      have hlen := h.length_eq
      have hmembers := redactObjectMembers_eq (fun p hp path w d hpw => ih p hp hpw d) h (depth + 1)
      unfold redactObject
      dsimp only
      rw [hlen, hmembers]
  | _ =>
    cases h with
    | secret hs => rw [redactObject_sensitive hs, redactObject_sensitive hs]
    | refl => rfl

/-- Two inputs that differ only beneath sensitive names and paths give one output or one error, and
leave one budget. -/
theorem redaction_noninterference (policy : RedactionPolicy) (v w : PyObject)
    (h : SameOutside P policy [] v w) :
    policy.applyObject P v = policy.applyObject P w ∧
      ∀ budget, redactObject P policy [] 0 v budget = redactObject P policy [] 0 w budget := by
  have hwalk := redactObject_eq h 0
  constructor
  · unfold RedactionPolicy.applyObject
    rw [hwalk]
  · intro budget
    rw [hwalk]

/-- A password beside a text, and two other things in its place. -/
def login (password : PyObject) : PyObject :=
  .mapping [(.str (lit "user"), .str (lit "u")), (.str (lit "Password"), password)]

theorem redaction_noninterference_sample :
    let policy := RedactionPolicy.default .plain
    let secret := login (.str (lit "s"))
    let nested := login (.sequence [.other "set", .mapping [(.other "int", .none)]])
    policy.applyObject .plain secret = policy.applyObject .plain nested ∧
      ∀ budget, redactObject .plain policy [] 0 secret budget
        = redactObject .plain policy [] 0 nested budget := by
  refine redaction_noninterference _ _ _ (.mapping ?_)
  refine .cons _ (.refl _ _) (.cons _ (.secret ?_ _ _) (.nil _))
  decide +kernel

end ActionLineage
