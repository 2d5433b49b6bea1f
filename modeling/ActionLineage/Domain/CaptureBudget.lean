import ActionLineage.Domain.RedactionFacts
import ActionLineage.Reference

/-!
# The capture budget of a pass

The walk charges the budget for exactly the captures that stand in its output for text or bytes of
the input (`redactValue_charges`), and it never goes on with a budget that is overdrawn. So what a
pass captures stays within the limits of the policy, and text that is not cut is no longer than the
policy allows (`capture_budget_kept`).
-/

namespace ActionLineage

open Py

variable {P : Platform} {policy : RedactionPolicy} {path : Path}

/-! ## Statement -/

section Created

variable (P : Platform) (policy : RedactionPolicy)

mutual

/-- The objects that stand in the output where the input has text or bytes, outside sensitive
paths. -/
def createdCaptures (path : Path) : Value → Value → List Obj
  | .str _, .dict c => if isSensitive P path policy then [] else [c]
  | .bytes _, .dict c => if isSensitive P path policy then [] else [c]
  | .dict kvs, .dict out => if isSensitive P path policy then [] else createdInMembers path kvs out
  | .list xs, .list out => if isSensitive P path policy then [] else createdInItems path xs out
  | _, _ => []

def createdInMembers (path : Path) : Obj → Obj → List Obj
  | (k, v) :: kvs, (_, w) :: out =>
    createdCaptures (path ++ [P.lower k]) v w ++ createdInMembers path kvs out
  | _, _ => []

def createdInItems (path : Path) : List Value → List Value → List Obj
  | v :: xs, w :: out => createdCaptures path v w ++ createdInItems path xs out
  | _, _ => []

end

/-- What stands in the output at a place of the input that no sensitive path covers. -/
inductive ReplacedBy : Path → Value → Value → Path → Value → Value → Prop
  | here (path : Path) (v w : Value) : ReplacedBy path v w path v w
  | member {path path' : Path} {kvs out : Obj} {i : Nat} {k : Str} {v w v' w' : Value} :
      isSensitive P path policy = false → kvs[i]? = some (k, v) → out[i]? = some (k, w) →
        ReplacedBy (path ++ [P.lower k]) v w path' v' w' →
          ReplacedBy path (.dict kvs) (.dict out) path' v' w'
  | item {path path' : Path} {xs out : List Value} {i : Nat} {v w v' w' : Value} :
      isSensitive P path policy = false → xs[i]? = some v → out[i]? = some w →
        ReplacedBy path v w path' v' w' → ReplacedBy path (.list xs) (.list out) path' v' w'

end Created

/-- The bytes a capture carries: the UTF-8 form of text, the characters of base64. -/
def capturedSize (capture : Obj) : Nat :=
  match Obj.get? capture (lit "encoding"), Obj.get? capture (lit "value") with
  | some (.str encoding), some (.str value) =>
    if encoding = lit "text" then ((utf8Encode value).getD []).length else value.length
  | _, _ => 0

/-- Text that is short enough, or a capture of exactly as many characters as are allowed. -/
def BoundedText (policy : RedactionPolicy) (w : Value) : Prop :=
  (∃ t, w = .str t ∧ (t.length : Int) ≤ policy.maxStringLength) ∨
    ∃ c : CaptureMetadata, w = c.asJson ∧ (c.value.length : Int) = policy.maxStringLength

/-! ## Charging -/

/-- The budget after the captures were charged, none of which overdrew it. -/
structure Charged (b b' : CaptureBudget) (captures : List Obj) : Prop where
  maxCount : b'.maxCount = b.maxCount
  maxBytes : b'.maxBytes = b.maxBytes
  count : b'.count = b.count + captures.length
  capturedBytes : b'.capturedBytes = b.capturedBytes + (captures.map capturedSize).sum
  withinCount : b.count ≤ b.maxCount → b'.count ≤ b.maxCount
  withinBytes : b.capturedBytes ≤ b.maxBytes → b'.capturedBytes ≤ b.maxBytes

theorem Charged.refl (b : CaptureBudget) : Charged b b [] :=
  ⟨rfl, rfl, by simp, by simp, id, id⟩

theorem Charged.append {b b' b'' : CaptureBudget} {cs ds : List Obj} (h : Charged b b' cs)
    (h' : Charged b' b'' ds) : Charged b b'' (cs ++ ds) where
  maxCount := h'.maxCount.trans h.maxCount
  maxBytes := h'.maxBytes.trans h.maxBytes
  count := by
    rw [h'.count, h.count, List.length_append]
    omega
  capturedBytes := by
    rw [h'.capturedBytes, h.capturedBytes, List.map_append, List.sum_append]
    omega
  withinCount hb := h.maxCount ▸ h'.withinCount (h.maxCount ▸ h.withinCount hb)
  withinBytes hb := h.maxBytes ▸ h'.withinBytes (h.maxBytes ▸ h.withinBytes hb)

theorem record_charged {b b' : CaptureBudget} {n : Nat} {capture : Obj}
    (hsize : capturedSize capture = n) (h : b.record n = .ok b') : Charged b b' [capture] := by
  unfold CaptureBudget.record at h
  split_ifs at h with hcount hbytes
  obtain rfl := Except.ok.inj h
  refine ⟨rfl, rfl, rfl, ?_, fun _ => Int.not_lt.mp hcount, fun _ => Int.not_lt.mp hbytes⟩
  simp [hsize]

theorem encodeUtf8_eq_ok {s : Str} {encoded : Bytes} (h : encodeUtf8 s = .ok encoded) :
    utf8Encode s = some encoded := by
  unfold encodeUtf8 at h
  cases hutf8 : utf8Encode s with
  | none =>
    rw [hutf8] at h
    cases h
  | some bytes =>
    rw [hutf8] at h
    exact congrArg some (Except.ok.inj h)

/-- The object of a capture. -/
theorem asJson_eq (c : CaptureMetadata) : ∃ kvs, c.asJson = .dict kvs ∧
    Obj.get? kvs (lit "marker") = some (.str (lit "actionlineage.capture.v1")) ∧
    Obj.get? kvs (lit "encoding") = some (.str c.encoding) ∧
    Obj.get? kvs (lit "value") = some (.str c.value) :=
  ⟨_, rfl, rfl, rfl, rfl⟩

/-- A capture is charged for what it carries. -/
theorem recordCapture_charged {c : CaptureMetadata} {capture : Obj} {b b' : CaptureBudget}
    (hc : c.asJson = .dict capture) (h : recordCapture c.asJson b = .ok b') :
    Charged b b' [capture] := by
  obtain ⟨kvs, hkvs, hmarker, hencoding, hvalue⟩ := asJson_eq c
  obtain rfl := Value.dict.inj (hc.symm.trans hkvs)
  rw [hkvs] at h
  unfold recordCapture at h
  simp only [hmarker, hencoding, hvalue, if_true] at h
  split at h
  · rename_i htext
    obtain ⟨encoded, hencoded, h⟩ := bind_eq_ok.mp h
    refine record_charged ?_ h
    rw [capturedSize, hencoding, hvalue]
    dsimp only
    rw [if_pos htext, encodeUtf8_eq_ok hencoded, Option.getD_some]
  · rename_i htext
    split at h
    · refine record_charged ?_ h
      rw [capturedSize, hencoding, hvalue]
      dsimp only
      rw [if_neg htext]
    · cases h

/-! ## The walk charges what it captures -/

theorem createdCaptures_sensitive (h : isSensitive P path policy = true) (v w : Value) :
    createdCaptures P policy path v w = [] := by
  cases v <;> cases w <;> simp [createdCaptures, h]

theorem redactStr_charges {b b' : CaptureBudget} {s : Str} {w : Value}
    (hs : isSensitive P path policy = false)
    (h : redactStr P policy path s b = .ok (w, b')) :
    Charged b b' (createdCaptures P policy path (.str s) w) := by
  obtain ⟨t, -, h⟩ := bind_eq_ok.mp h
  split_ifs at h
  · obtain ⟨rfl, rfl⟩ := Prod.mk.inj (Except.ok.inj h)
    exact Charged.refl b
  · obtain ⟨captured, hcaptured, h⟩ := bind_eq_ok.mp h
    obtain ⟨b'', hrecord, h⟩ := bind_eq_ok.mp h
    obtain ⟨rfl, rfl⟩ := Prod.mk.inj (Except.ok.inj h)
    rcases captureString_cases hcaptured with rfl | ⟨c, rfl⟩
    · obtain rfl := Except.ok.inj hrecord
      exact Charged.refl b
    · obtain ⟨capture, hcapture, -⟩ := asJson_eq c
      rw [hcapture, createdCaptures, hs]
      exact recordCapture_charged hcapture hrecord

/-- The walk charges for what it captures in the value. -/
def Charges (P : Platform) (policy : RedactionPolicy) (v : Value) : Prop :=
  ∀ {path : Path} {depth : Nat} {b b' : CaptureBudget} {w : Value},
    redactValue P policy path depth b v = .ok (w, b') →
      Charged b b' (createdCaptures P policy path v w)

theorem redactMembers_charges {kvs out : Obj} (hkvs : ∀ p ∈ kvs, Charges P policy p.2)
    {path : Path} {depth : Nat} {b b' : CaptureBudget}
    (h : redactMembers P policy path depth b kvs = .ok (out, b')) :
    Charged b b' (createdInMembers P policy path kvs out) := by
  induction kvs generalizing b out with
  | nil =>
    obtain ⟨rfl, rfl⟩ := Prod.mk.inj (Except.ok.inj h)
    exact Charged.refl b
  | cons p kvs ih =>
    obtain ⟨hp, hkvs⟩ := List.forall_mem_cons.mp hkvs
    obtain ⟨r, hr, h⟩ := bind_eq_ok.mp h
    obtain ⟨rs, hrs, h⟩ := bind_eq_ok.mp h
    obtain ⟨rfl, rfl⟩ := Prod.mk.inj (Except.ok.inj h)
    exact (hp hr).append (ih hkvs hrs)

theorem redactItems_charges {xs out : List Value} (hxs : ∀ x ∈ xs, Charges P policy x)
    {path : Path} {depth : Nat} {b b' : CaptureBudget}
    (h : redactItems P policy path depth b xs = .ok (out, b')) :
    Charged b b' (createdInItems P policy path xs out) := by
  induction xs generalizing b out with
  | nil =>
    obtain ⟨rfl, rfl⟩ := Prod.mk.inj (Except.ok.inj h)
    exact Charged.refl b
  | cons x xs ih =>
    obtain ⟨hx, hxs⟩ := List.forall_mem_cons.mp hxs
    obtain ⟨r, hr, h⟩ := bind_eq_ok.mp h
    obtain ⟨rs, hrs, h⟩ := bind_eq_ok.mp h
    obtain ⟨rfl, rfl⟩ := Prod.mk.inj (Except.ok.inj h)
    exact (hx hr).append (ih hxs hrs)

/-- At a sensitive path nothing is captured and nothing charged. -/
theorem charges_of_plain {v : Value}
    (h : ∀ {path : Path} {depth : Nat} {b b' : CaptureBudget} {w : Value},
      isSensitive P path policy = false → redactValue P policy path depth b v = .ok (w, b') →
        Charged b b' (createdCaptures P policy path v w)) : Charges P policy v := by
  intro path depth b b' w hv
  cases hs : isSensitive P path policy with
  | true =>
    rw [redactValue_sensitive hs] at hv
    obtain ⟨rfl, rfl⟩ := Prod.mk.inj (Except.ok.inj hv)
    rw [createdCaptures_sensitive hs]
    exact Charged.refl b
  | false => exact h hs hv

theorem redactValue_charges (v : Value) : Charges P policy v := by
  induction v with
  | str s =>
    refine charges_of_plain fun {path depth b b' w} hs h => ?_
    rw [redactValue, hs] at h
    obtain ⟨-, -, h⟩ := bind_eq_ok.mp h
    exact redactStr_charges hs h
  | bytes bs =>
    refine charges_of_plain fun {path depth b b' w} hs h => ?_
    rw [redactValue, hs] at h
    obtain ⟨-, -, h⟩ := bind_eq_ok.mp h
    obtain ⟨captured, hcaptured, h⟩ := bind_eq_ok.mp h
    obtain ⟨b'', hrecord, h⟩ := bind_eq_ok.mp h
    obtain ⟨rfl, rfl⟩ := Prod.mk.inj (Except.ok.inj h)
    obtain ⟨c, rfl⟩ := captureBytes_cases hcaptured
    obtain ⟨capture, hcapture, -⟩ := asJson_eq c
    rw [hcapture, createdCaptures, hs]
    exact recordCapture_charged hcapture hrecord
  | dict kvs ih =>
    refine charges_of_plain fun {path depth b b' w} hs h => ?_
    rw [redactValue, hs] at h
    obtain ⟨-, -, h⟩ := bind_eq_ok.mp h
    obtain ⟨-, -, h⟩ := bind_eq_ok.mp h
    obtain ⟨r, hr, h⟩ := bind_eq_ok.mp h
    obtain ⟨rfl, rfl⟩ := Prod.mk.inj (Except.ok.inj h)
    rw [createdCaptures, hs]
    exact redactMembers_charges ih hr
  | list xs ih =>
    refine charges_of_plain fun {path depth b b' w} hs h => ?_
    rw [redactValue, hs] at h
    obtain ⟨-, -, h⟩ := bind_eq_ok.mp h
    obtain ⟨-, -, h⟩ := bind_eq_ok.mp h
    obtain ⟨r, hr, h⟩ := bind_eq_ok.mp h
    obtain ⟨rfl, rfl⟩ := Prod.mk.inj (Except.ok.inj h)
    rw [createdCaptures, hs]
    exact redactItems_charges ih hr
  | float x =>
    refine charges_of_plain fun {path depth b b' w} hs h => ?_
    rw [redactValue, hs] at h
    obtain ⟨-, -, h⟩ := bind_eq_ok.mp h
    obtain ⟨-, -, h⟩ := bind_eq_ok.mp h
    obtain ⟨rfl, rfl⟩ := Prod.mk.inj (Except.ok.inj h)
    exact Charged.refl b
  | _ =>
    refine charges_of_plain fun {path depth b b' w} hs h => ?_
    simp only [redactValue, hs] at h
    obtain ⟨-, -, h⟩ := bind_eq_ok.mp h
    obtain ⟨rfl, rfl⟩ := Prod.mk.inj (Except.ok.inj h)
    exact Charged.refl b

/-! ## Places of the output -/

theorem of_getElem? {α β : Type} {R : α → β → Prop} {xs : List α} {ys : List β}
    (h : List.Forall₂ R xs ys) {i : Nat} {x : α} {y : β} (hx : xs[i]? = some x)
    (hy : ys[i]? = some y) : R x y := by
  obtain ⟨hi, rfl⟩ := List.getElem?_eq_some_iff.mp hx
  obtain ⟨hj, rfl⟩ := List.getElem?_eq_some_iff.mp hy
  exact h.get hi hj

/-- What stands at a place of the output is what the policy makes of what stood there. -/
theorem redacts_of_replacedBy {path path' : Path} {v w v' w' : Value}
    (h : ReplacedBy P policy path v w path' v' w') (hr : Redacts P policy path v w) :
    Redacts P policy path' v' w' := by
  induction h with
  | here path v w => exact hr
  | member hs hv hw _ ih =>
    rcases redacts_shape hr with ⟨hs', -⟩ | ⟨-, out, hout, hmembers⟩
    · rw [hs] at hs'
      cases hs'
    · obtain rfl := Value.dict.inj hout
      exact ih (of_getElem? hmembers hv hw).2
  | item hs hv hw _ ih =>
    rcases redacts_shape hr with ⟨hs', -⟩ | ⟨-, out, hout, hitems⟩
    · rw [hs] at hs'
      cases hs'
    · obtain rfl := Value.list.inj hout
      exact ih (of_getElem? hitems hv hw)

theorem captureString_bounded {max : Int} {s : Str} {w : Value}
    (h : captureString P max s = .ok w) :
    (∃ t, w = .str t ∧ (t.length : Int) ≤ max) ∨
      ∃ c : CaptureMetadata, w = c.asJson ∧ (c.value.length : Int) = max := by
  unfold captureString at h
  split_ifs at h with hneg hshort
  · exact .inl ⟨s, (Except.ok.inj h).symm, hshort⟩
  · obtain ⟨encoded, -, h⟩ := bind_eq_ok.mp h
    refine .inr ⟨_, (Except.ok.inj h).symm, ?_⟩
    dsimp only
    rw [List.length_take]
    omega

/-- An applied policy walked the value with a fresh budget. -/
theorem walk_of_apply {value out : Value} (h : policy.apply P value = .ok out) :
    0 ≤ policy.maxCaptureCount ∧ 0 ≤ policy.maxCaptureBytes ∧
      ∃ budget, redactValue P policy [] 0
        ⟨policy.maxCaptureCount, policy.maxCaptureBytes, 0, 0⟩ value = .ok (out, budget) := by
  unfold RedactionPolicy.apply at h
  dsimp only at h
  split at h
  · rename_i v hv
    obtain rfl := Except.ok.inj h
    obtain ⟨budget, hbudget, hv⟩ := bind_eq_ok.mp hv
    obtain ⟨⟨w, budget'⟩, hw, hv⟩ := bind_eq_ok.mp hv
    obtain rfl := Except.ok.inj hv
    unfold captureBudget at hbudget
    split_ifs at hbudget with hcount hbytes
    obtain rfl := Except.ok.inj hbudget
    exact ⟨Int.not_lt.mp hcount, Int.not_lt.mp hbytes, budget', hw⟩
  · cases h

/-- Text that the policy neither hides nor exempts comes out bounded. -/
theorem boundedText_of_redacts {s : Str} {w : Value} (h : Redacts P policy path (.str s) w)
    (hs : isSensitive P path policy = false) (hexempt : isCaptureExemptPath path policy = false) :
    BoundedText policy w := by
  rcases redacts_shape h with ⟨hs', -⟩ | ⟨-, t, -, hw⟩
  · rw [hs] at hs'
    cases hs'
  · rw [hexempt, if_neg Bool.false_ne_true] at hw
    exact captureString_bounded hw

/-- **Capture budget.** What an applied policy captures is within its limits, and what it leaves of
text is short enough. -/
theorem capture_budget_kept {P : Platform} {policy : RedactionPolicy} {value out : Value}
    (h : policy.apply P value = .ok out) :
    ((createdCaptures P policy [] value out).length : Int) ≤ policy.maxCaptureCount ∧
      (((createdCaptures P policy [] value out).map capturedSize).sum : Int)
        ≤ policy.maxCaptureBytes ∧
      ∀ path s w, ReplacedBy P policy [] value out path (.str s) w →
        isSensitive P path policy = false → isCaptureExemptPath path policy = false →
          BoundedText policy w := by
  obtain ⟨hcount, hbytes, budget, hwalk⟩ := walk_of_apply h
  have hcharged := redactValue_charges value hwalk
  refine ⟨?_, ?_, fun path s w hplace hs hexempt => ?_⟩
  · have hwithin := hcharged.withinCount hcount
    rw [hcharged.count] at hwithin
    dsimp only at hwithin
    omega
  · have hwithin := hcharged.withinBytes hbytes
    rw [hcharged.capturedBytes] at hwithin
    dsimp only at hwithin
    omega
  · exact boundedText_of_redacts (redacts_of_replacedBy hplace ⟨0, _, budget, hwalk⟩) hs hexempt

/-- A policy that allows four characters of text, and two captures of at most eight bytes. -/
def narrowPolicy : RedactionPolicy :=
  { sensitivePaths := [], sensitiveFieldNames := [lit "token"], maxStringLength := 4
    maxBytesLength := 3, maxCaptureCount := 2, maxCaptureBytes := 8, maxJsonDepth := 4
    maxObjectMembers := 4, maxArrayLength := 4, captureExemptPaths := [], patterns := [] }

/-- A long text and some bytes, which the narrow policy captures, beside a hidden token. -/
def capturedInput : Value :=
  .dict [(lit "note", .str (lit "abcdefgh")), (lit "raw", .bytes [⟨1, by decide⟩, ⟨2, by decide⟩, ⟨3, by decide⟩, ⟨4, by decide⟩]),
    (lit "token", .str (lit "abcdefgh"))]

theorem capture_budget_kept_sample :
    ∃ out, narrowPolicy.apply (.reference hexText hexText_hex) capturedInput = .ok out ∧
      (createdCaptures (.reference hexText hexText_hex) narrowPolicy [] capturedInput out).length
        = 2 ∧
      (((createdCaptures (.reference hexText hexText_hex) narrowPolicy [] capturedInput out).map
        capturedSize).sum : Int) ≤ narrowPolicy.maxCaptureBytes := by
  obtain ⟨out, hout, hcaptures⟩ := map_eq_ok.mp
    (show (narrowPolicy.apply (.reference hexText hexText_hex) capturedInput).map
      (fun out => (createdCaptures (.reference hexText hexText_hex) narrowPolicy [] capturedInput
        out).length) = .ok 2 by decide +kernel)
  exact ⟨out, hout, hcaptures, (capture_budget_kept hout).2.1⟩

end ActionLineage
