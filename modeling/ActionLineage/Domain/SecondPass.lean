import ActionLineage.Domain.RedactedEvent

/-!
# A second pass of redaction

`Settled Q` says of a value that the walk finds the marker at every sensitive position and text
with `Q` everywhere else. What the default policy let through once is settled as far as the capture
limits go (`settled_of_redacts`), so a second pass of it is the identity exactly when the patterns
leave every visited text alone (`redactValue_eq_self`, `settled_of_redacts_self`).
-/

namespace ActionLineage

open Py

variable {P : Platform}

section Settled

variable (P : Platform) (policy : RedactionPolicy) (Q : Path → Str → Prop)

mutual

/-- Sensitive positions hold the marker, and `Q` holds of every other text and its path. -/
def Settled (path : Path) : Value → Prop
  | .str s =>
    if isSensitive P path policy = true then Value.str s = redactedMarker (lit "sensitive")
    else Q path s
  | .bytes b =>
    if isSensitive P path policy = true then Value.bytes b = redactedMarker (lit "sensitive")
    else False
  | .list xs =>
    if isSensitive P path policy = true then Value.list xs = redactedMarker (lit "sensitive")
    else SettledItems path xs
  | .dict kvs =>
    if isSensitive P path policy = true then Value.dict kvs = redactedMarker (lit "sensitive")
    else SettledMembers path kvs
  | v => isSensitive P path policy = true → v = redactedMarker (lit "sensitive")

def SettledItems (path : Path) : List Value → Prop
  | [] => True
  | x :: xs => Settled path x ∧ SettledItems path xs

def SettledMembers (path : Path) : Obj → Prop
  | [] => True
  | (k, v) :: kvs => Settled (path ++ [P.lower k]) v ∧ SettledMembers path kvs

end

variable {P policy Q}

theorem settledItems_iff {path : Path} {xs : List Value} :
    SettledItems P policy Q path xs ↔ ∀ x ∈ xs, Settled P policy Q path x := by
  induction xs with
  | nil => simp [SettledItems]
  | cons x xs ih => simp [SettledItems, ih]

theorem settledMembers_iff {path : Path} {kvs : Obj} :
    SettledMembers P policy Q path kvs ↔
      ∀ p ∈ kvs, Settled P policy Q (path ++ [P.lower p.1]) p.2 := by
  induction kvs with
  | nil => simp [SettledMembers]
  | cons p kvs ih => simp [SettledMembers, ih]

/-- At a sensitive path. -/
theorem settled_of_sensitive {path : Path} (hs : isSensitive P path policy = true) {v : Value} :
    Settled P policy Q path v ↔ v = redactedMarker (lit "sensitive") := by
  cases v <;> simp [Settled, hs]

/-- At any other path. -/
def Settled.Shape (P : Platform) (policy : RedactionPolicy) (Q : Path → Str → Prop) (path : Path) :
    Value → Prop
  | .str s => Q path s
  | .bytes _ => False
  | .list xs => ∀ x ∈ xs, Settled P policy Q path x
  | .dict kvs => ∀ p ∈ kvs, Settled P policy Q (path ++ [P.lower p.1]) p.2
  | _ => True

theorem settled_of_not_sensitive {path : Path} (hs : isSensitive P path policy = false) {v : Value} :
    Settled P policy Q path v ↔ Settled.Shape P policy Q path v := by
  cases v <;> simp [Settled, Settled.Shape, hs, settledItems_iff, settledMembers_iff]

theorem settled_cases {path : Path} {v : Value} (h : Settled P policy Q path v) :
    (isSensitive P path policy = true ∧ v = redactedMarker (lit "sensitive")) ∨
      (isSensitive P path policy = false ∧ Settled.Shape P policy Q path v) := by
  cases hs : isSensitive P path policy with
  | true => exact .inl ⟨rfl, (settled_of_sensitive hs).mp h⟩
  | false => exact .inr ⟨rfl, (settled_of_not_sensitive hs).mp h⟩

theorem Settled.and {Q' : Path → Str → Prop} {path : Path} {v : Value}
    (h : Settled P policy Q path v) (h' : Settled P policy Q' path v) :
    Settled P policy (fun path s => Q path s ∧ Q' path s) path v := by
  induction v generalizing path with
  | list xs ih =>
    rcases settled_cases h with ⟨hs, hv⟩ | ⟨hs, h⟩
    · exact (settled_of_sensitive hs).mpr hv
    · have h' := (settled_of_not_sensitive hs).mp h'
      exact (settled_of_not_sensitive hs).mpr fun x hx => ih x hx (h x hx) (h' x hx)
  | dict kvs ih =>
    rcases settled_cases h with ⟨hs, hv⟩ | ⟨hs, h⟩
    · exact (settled_of_sensitive hs).mpr hv
    · have h' := (settled_of_not_sensitive hs).mp h'
      exact (settled_of_not_sensitive hs).mpr fun p hp => ih p hp (h p hp) (h' p hp)
  | str s =>
    rcases settled_cases h with ⟨hs, hv⟩ | ⟨hs, h⟩
    · exact (settled_of_sensitive hs).mpr hv
    · have h' := (settled_of_not_sensitive hs).mp h'
      exact (settled_of_not_sensitive hs).mpr ⟨h, h'⟩
  | _ =>
    rcases settled_cases h with ⟨hs, hv⟩ | ⟨hs, h⟩
    · exact (settled_of_sensitive hs).mpr hv
    · exact (settled_of_not_sensitive hs).mpr h

end Settled

/-! ## The second pass -/

/-- Text that is not captured. -/
def Short (policy : RedactionPolicy) (path : Path) (s : Str) : Prop :=
  isCaptureExemptPath path policy = true ∨ (s.length : Int) ≤ policy.maxStringLength

/-- Text the patterns leave alone. -/
def Stable (policy : RedactionPolicy) (s : Str) : Prop := redactText policy s = .ok s

/-- The policy's limits on containers are no tighter than the JSON limits. -/
structure Roomy (policy : RedactionPolicy) : Prop where
  depth : (DEFAULT_JSON_MAX_DEPTH : Int) ≤ policy.maxJsonDepth
  members : (DEFAULT_JSON_MAX_OBJECT_MEMBERS : Int) ≤ policy.maxObjectMembers
  items : (DEFAULT_JSON_MAX_ARRAY_LENGTH : Int) ≤ policy.maxArrayLength
  strings : 0 ≤ policy.maxStringLength

theorem roomy_default : Roomy (.default P) where
  depth := le_refl _
  members := le_refl _
  items := le_refl _
  strings := by
    show (0 : Int) ≤ 4096
    decide

section Pass

variable {policy : RedactionPolicy}

theorem Roomy.depthOk (hroom : Roomy policy) {depth : Nat} {v : Value}
    (hfits : Fits .default depth v) : depthOk policy depth = .ok () := by
  have hle := hfits.depth_le
  have := hroom.depth
  simp only [JsonLimits.default] at hle
  rw [ActionLineage.depthOk, require_eq_ok, decide_eq_true_eq]
  omega

theorem redactItems_eq_self {path : Path} {depth : Nat} {xs : List Value}
    (h : ∀ x ∈ xs, ∀ budget, redactValue P policy path depth budget x = .ok (x, budget))
    (budget : CaptureBudget) : redactItems P policy path depth budget xs = .ok (xs, budget) := by
  induction xs with
  | nil => rfl
  | cons x xs ih =>
    have hrest := ih fun y hy => h y (by simp [hy])
    simp only [redactItems, h x (by simp) budget, bind, Except.bind, hrest]

theorem redactMembers_eq_self {path : Path} {depth : Nat} {kvs : Obj}
    (h : ∀ p ∈ kvs, ∀ budget,
      redactValue P policy (path ++ [P.lower p.1]) depth budget p.2 = .ok (p.2, budget))
    (budget : CaptureBudget) :
    redactMembers P policy path depth budget kvs = .ok (kvs, budget) := by
  induction kvs with
  | nil => rfl
  | cons p kvs ih =>
    obtain ⟨k, v⟩ := p
    have hv := h (k, v) (by simp) budget
    have hrest := ih fun q hq => h q (by simp [hq])
    simp only at hv
    simp only [redactMembers, hv, bind, Except.bind, hrest]

/-- Short and stable text goes through, and nothing is captured. -/
theorem redactValue_eq_self (hroom : Roomy policy) {path : Path} {depth : Nat} {v : Value}
    (hfits : Fits .default depth v)
    (h : Settled P policy (fun path s => Short policy path s ∧ Stable policy s) path v)
    (budget : CaptureBudget) : redactValue P policy path depth budget v = .ok (v, budget) := by
  induction v generalizing path depth budget with
  | str s =>
    have hdepth := hroom.depthOk hfits
    rcases settled_cases h with ⟨hs, hv⟩ | ⟨hs, hshort, hstable⟩
    · cases hv
    have hstr : redactStr P policy path s budget = .ok (.str s, budget) := by
      have hredact : redactText policy s = .ok s := hstable
      unfold redactStr
      simp only [hredact, bind, Except.bind]
      rcases hshort with hexempt | hlen
      · rw [if_pos hexempt]
      · have hcapture : captureString P policy.maxStringLength s = .ok (.str s) := by
          rw [captureString, if_neg (not_lt.mpr hroom.strings), if_pos hlen]
        split
        · rfl
        · simp only [hcapture, recordCapture]
    rw [redactValue, hs, hdepth]
    exact hstr
  | list xs ih =>
    have hdepth := hroom.depthOk hfits
    rcases settled_cases h with ⟨hs, hv⟩ | ⟨hs, h⟩
    · cases hv
    obtain ⟨-, hlen, hfits⟩ := (fits_list _).mp hfits
    have hitems : require (decide ((xs.length : Int) ≤ policy.maxArrayLength))
        (.redactionError ("JSON array exceeds " ++ toString policy.maxArrayLength ++ " items"))
        = .ok () := by
      have := hroom.items
      simp only [JsonLimits.default] at hlen
      rw [require_eq_ok, decide_eq_true_eq]
      omega
    have hwalk := redactItems_eq_self (fun x hx b => ih x hx (hfits x hx) (h x hx) b) budget
    simp only [redactValue, hs, hdepth, hitems, hwalk, bind, Except.bind, Bool.false_eq_true,
      if_false]
  | dict kvs ih =>
    have hdepth := hroom.depthOk hfits
    rcases settled_cases h with ⟨hs, hv⟩ | ⟨hs, h⟩
    · rw [hv, redactValue_sensitive hs]
    obtain ⟨-, hlen, hfits⟩ := (fits_dict _).mp hfits
    have hmembers : require (decide ((kvs.length : Int) ≤ policy.maxObjectMembers))
        (.redactionError ("JSON object exceeds " ++ toString policy.maxObjectMembers ++ " members"))
        = .ok () := by
      have := hroom.members
      simp only [JsonLimits.default] at hlen
      rw [require_eq_ok, decide_eq_true_eq]
      omega
    have hwalk := redactMembers_eq_self (fun p hp b => ih p hp (hfits p hp) (h p hp) b) budget
    simp only [redactValue, hs, hdepth, hmembers, hwalk, bind, Except.bind, Bool.false_eq_true,
      if_false]
  | float x =>
    have hdepth := hroom.depthOk hfits
    rcases settled_cases h with ⟨hs, hv⟩ | ⟨hs, -⟩
    · cases hv
    have hfinite : x.isFinite = true := hfits.2
    simp only [redactValue, hs, hdepth, hfinite, require, bind, Except.bind, Bool.false_eq_true,
      if_false, if_true]
  | bytes b => exact hfits.elim
  | _ =>
    have hdepth := hroom.depthOk hfits
    rcases settled_cases h with ⟨hs, hv⟩ | ⟨hs, -⟩
    · cases hv
    simp only [redactValue, hs, hdepth, bind, Except.bind, Bool.false_eq_true, if_false]

/-- Conversely, what a pass returns unchanged has stable texts only. -/
theorem settled_of_redacts_self {path : Path} {v : Value} (h : Redacts P policy path v v) :
    Settled P policy (fun _ s => Stable policy s) path v := by
  induction v generalizing path with
  | str s =>
    rcases redacts_shape h with ⟨hs, hv⟩ | ⟨hs, t, ht, h⟩
    · exact (settled_of_sensitive hs).mpr hv
    refine (settled_of_not_sensitive hs).mpr ?_
    show redactText policy s = .ok s
    split_ifs at h
    · rw [ht, Value.str.inj h]
    · rcases captureString_cases h with h | ⟨c, h⟩
      · rw [ht, Value.str.inj h]
      · cases h
  | bytes b =>
    rcases redacts_shape h with ⟨hs, hv⟩ | ⟨hs, h⟩
    · exact (settled_of_sensitive hs).mpr hv
    · obtain ⟨c, hc⟩ := captureBytes_cases h
      cases hc
  | list xs ih =>
    rcases redacts_shape h with ⟨hs, hv⟩ | ⟨hs, out, hout, h⟩
    · exact (settled_of_sensitive hs).mpr hv
    obtain rfl := Value.list.inj hout
    refine (settled_of_not_sensitive hs).mpr fun x hx => ih x hx ?_
    exact List.forall₂_same.mp h x hx
  | dict kvs ih =>
    rcases redacts_shape h with ⟨hs, hv⟩ | ⟨hs, out, hout, h⟩
    · exact (settled_of_sensitive hs).mpr hv
    obtain rfl := Value.dict.inj hout
    refine (settled_of_not_sensitive hs).mpr fun p hp => ih p hp ?_
    exact (List.forall₂_same.mp h p hp).2
  | _ =>
    rcases redacts_shape h with ⟨hs, hv⟩ | ⟨hs, -⟩
    · exact (settled_of_sensitive hs).mpr hv
    · exact (settled_of_not_sensitive hs).mpr trivial

end Pass

/-! ## What the default policy lets through -/

/-- A lower-case ASCII name that is not on the list. -/
def plainName (k : Str) : Bool :=
  k.all (fun c => c.val < 128 && asciiLower c == c) &&
    !DEFAULT_SENSITIVE_FIELD_NAMES.contains (k.map fun c => if c = cp '-' then cp '_' else c)

theorem lower_plainName {k : Str} (hk : plainName k = true) : P.lower k = k :=
  P.lower_eq_self (Bool.and_eq_true_iff.mp hk).1

theorem isSensitive_plainName (path : Path) {k : Str} (hk : plainName k = true) :
    isSensitive P (path ++ [P.lower k]) (.default P) = false := by
  obtain ⟨hlower, hname⟩ := Bool.and_eq_true_iff.mp hk
  have hdash : (k.map fun c => if c = cp '-' then cp '_' else c).all
      (fun c => c.val < 128 && asciiLower c == c) = true := by
    rw [List.all_eq_true]
    intro d hd
    obtain ⟨c, hc, rfl⟩ := List.mem_map.mp hd
    by_cases hc' : c = cp '-'
    · rw [if_pos hc']
      decide
    · rw [if_neg hc']
      exact List.all_eq_true.mp hlower c hc
  have hfield : isSensitiveField P (path ++ [P.lower k]) (.default P) = false := by
    unfold isSensitiveField
    rw [List.getLast?_concat, P.lower_eq_self hlower]
    show DEFAULT_SENSITIVE_FIELD_NAMES.contains _ = false
    rw [P.lower_eq_self hdash]
    simpa using hname
  rw [isSensitive, hfield]
  rfl

theorem sortKeys_redactedMarker :
    (redactedMarker (lit "sensitive")).sortKeys = redactedMarker (lit "sensitive") := rfl

/-- The texts of a capture object fit the limit. -/
theorem settled_asJson {c : CaptureMetadata} {path : Path}
    (hs : isSensitive P path (.default P) = false) (hencoding : c.encoding.length ≤ 4096)
    (hvalue : c.value.length ≤ 4096) (hdigest : c.digest.length ≤ 4096) :
    Settled P (.default P) (fun path s => Short (.default P) path s) path c.asJson.sortKeys := by
  have hmember : ∀ (k : Str) (v : Value), plainName k = true →
      Settled.Shape P (.default P) (fun path s => Short (.default P) path s) (path ++ [P.lower k]) v →
      Settled P (.default P) (fun path s => Short (.default P) path s) (path ++ [P.lower k]) v :=
    fun k v hk hv => (settled_of_not_sensitive (isSensitive_plainName path hk)).mpr hv
  have hshort : ∀ (q : Path) (s : Str), s.length ≤ 4096 → Short (.default P) q s := by
    intro q s hlen
    right
    show (s.length : Int) ≤ 4096
    exact_mod_cast hlen
  rw [CaptureMetadata.asJson, Value.sortKeys_dict, settled_of_not_sensitive hs]
  intro p hp
  obtain ⟨q, hq, rfl⟩ := List.mem_map.mp (mem_sortPairs.mp hp)
  revert q
  simp only [List.forall_mem_cons, Value.sortKeys]
  refine ⟨?_, ?_, ?_, ?_, ?_, ?_, ?_, ?_, by simp⟩
  · exact fun _ => hmember _ _ (by decide +kernel) (hshort _ _ (by decide))
  · exact fun _ => hmember _ _ (by decide +kernel) (hshort _ _ hencoding)
  · exact fun _ => hmember _ _ (by decide +kernel) (hshort _ _ hvalue)
  · exact fun _ => hmember _ _ (by decide +kernel) trivial
  · exact fun _ => hmember _ _ (by decide +kernel) trivial
  · exact fun _ => hmember _ _ (by decide +kernel) trivial
  · exact fun _ => hmember _ _ (by decide +kernel) (hshort _ _ hdigest)
  · exact fun _ => hmember _ _ (by decide +kernel) (hshort _ _ (by decide))

/-- JSON that went through the default policy is not captured again: digests are 64 characters. -/
theorem settled_of_redacts (hdigest : ∀ b, (P.sha256Hex b).length = 64) {v w : Value} {path : Path}
    {depth : Nat} (hfits : Fits .default depth v) (h : Redacts P (.default P) path v w) :
    Settled P (.default P) (fun path s => Short (.default P) path s) path w.sortKeys := by
  induction v generalizing path depth w with
  | str s =>
    rcases redacts_shape h with ⟨hs, rfl⟩ | ⟨hs, t, ht, h⟩
    · exact (settled_of_sensitive hs).mpr sortKeys_redactedMarker
    split_ifs at h with hexempt
    · rw [h]
      exact (settled_of_not_sensitive hs).mpr (.inl hexempt)
    unfold captureString at h
    split_ifs at h with hneg hlen
    · obtain rfl := Except.ok.inj h
      exact (settled_of_not_sensitive hs).mpr (.inr hlen)
    · obtain ⟨encoded, -, h⟩ := bind_eq_ok.mp h
      obtain rfl := Except.ok.inj h
      refine settled_asJson hs (by show (lit "text").length ≤ 4096; decide) ?_ ?_
      · show (t.take (4096 : Int).toNat).length ≤ 4096
        simp
      · show (P.sha256Digest _).length ≤ 4096
        rw [Platform.sha256Digest, List.length_append, hdigest]
        decide
  | bytes b => exact hfits.elim
  | list xs ih =>
    obtain ⟨-, -, hfits⟩ := (fits_list _).mp hfits
    rcases redacts_shape h with ⟨hs, rfl⟩ | ⟨hs, out, rfl, hout⟩
    · exact (settled_of_sensitive hs).mpr sortKeys_redactedMarker
    rw [Value.sortKeys_list, settled_of_not_sensitive hs]
    intro y hy
    obtain ⟨w, hw, rfl⟩ := List.mem_map.mp hy
    obtain ⟨x, hx, hxw⟩ := exists_of_forall₂ hout hw
    exact ih x hx (hfits x hx) hxw
  | dict kvs ih =>
    obtain ⟨-, -, hfits⟩ := (fits_dict _).mp hfits
    rcases redacts_shape h with ⟨hs, rfl⟩ | ⟨hs, out, rfl, hout⟩
    · exact (settled_of_sensitive hs).mpr sortKeys_redactedMarker
    rw [Value.sortKeys_dict, settled_of_not_sensitive hs]
    intro q hq
    obtain ⟨r, hr, rfl⟩ := List.mem_map.mp (mem_sortPairs.mp hq)
    obtain ⟨p, hp, hkey, hpr⟩ := exists_of_forall₂ hout hr
    have hmember := ih p hp (hfits p hp) hpr
    rw [← hkey] at hmember
    exact hmember
  | _ =>
    rcases redacts_shape h with ⟨hs, rfl⟩ | ⟨hs, rfl⟩
    · exact (settled_of_sensitive hs).mpr sortKeys_redactedMarker
    · exact (settled_of_not_sensitive hs).mpr trivial

/-! ## Event objects -/

/-- A text of the envelope: no name on its path is sensitive, and the path is exempt. -/
def envelopeText (base : Path) (k : Str) : Bool :=
  (base ++ [k]).all plainName && DEFAULT_CAPTURE_EXEMPT_PATHS.contains (base ++ [k])

theorem settled_envelopeText (base : Path) {k : Str} (h : envelopeText base k = true) (s : Str) :
    Settled P (.default P) (fun path s => Short (.default P) path s)
      (base.map P.lower ++ [P.lower k]) (.str s) := by
  obtain ⟨hnames, hexempt⟩ := Bool.and_eq_true_iff.mp h
  have hplain := List.all_eq_true.mp hnames
  have hbase : base.map P.lower = base := by
    calc base.map P.lower = base.map id :=
          List.map_congr_left fun k hk => lower_plainName (hplain k (by simp [hk]))
      _ = base := List.map_id base
  have hk := hplain k (by simp)
  refine (settled_of_not_sensitive (isSensitive_plainName _ hk)).mpr (.inl ?_)
  show DEFAULT_CAPTURE_EXEMPT_PATHS.contains _ = true
  rw [hbase, lower_plainName hk, hexempt]

theorem settled_envelopeOptText (base : Path) {k : Str} (h : envelopeText base k = true)
    (t : Option Text) :
    Settled P (.default P) (fun path s => Short (.default P) path s)
      (base.map P.lower ++ [P.lower k]) (optText t) := by
  cases t with
  | none =>
    have hk := List.all_eq_true.mp (Bool.and_eq_true_iff.mp h).1 k (by simp)
    exact (settled_of_not_sensitive (isSensitive_plainName _ hk)).mpr trivial
  | some t => exact settled_envelopeText base h t.val

/-- An object of the envelope. -/
theorem settled_envelopeObject {k : Str} (hk : plainName k = true) {kvs : Obj}
    (h : ∀ p ∈ kvs, Settled P (.default P) (fun path s => Short (.default P) path s)
      ([k].map P.lower ++ [P.lower p.1]) p.2) :
    Settled P (.default P) (fun path s => Short (.default P) path s) ([] ++ [P.lower k])
      (.dict kvs) :=
  (settled_of_not_sensitive (isSensitive_plainName [] hk)).mpr h

/-- An event object is settled when its payload is. -/
theorem settled_items (e : EventEnvelope) {o : Obj}
    (h : Settled P (.default P) (fun path s => Short (.default P) path s) [P.lower (lit "payload")]
      (.dict o)) :
    Settled P (.default P) (fun path s => Short (.default P) path s) [] (.dict (e.items o)) := by
  have hroot : isSensitive P [] (.default P) = false := rfl
  rw [settled_of_not_sensitive hroot]
  show ∀ p ∈ e.items o, _
  simp only [EventEnvelope.items, List.forall_mem_cons]
  refine ⟨?_, ?_, ?_, ?_, ?_, ?_, ?_, ?_, ?_, ?_, h, ?_, by simp⟩
  case refine_6 =>
    refine settled_envelopeObject (k := lit "source") (by decide +kernel) ?_
    simp only [Source.items, List.forall_mem_cons]
    refine ⟨?_, ?_, ?_, by simp⟩ <;>
      exact settled_envelopeText [lit "source"] (by decide +kernel) _
  case refine_7 =>
    refine settled_envelopeObject (k := lit "correlation") (by decide +kernel) ?_
    simp only [Correlation.items, List.forall_mem_cons]
    refine ⟨?_, ?_, ?_, ?_, by simp⟩
    case refine_1 | refine_2 =>
      exact settled_envelopeText [lit "correlation"] (by decide +kernel) _
    all_goals exact settled_envelopeOptText [lit "correlation"] (by decide +kernel) _
  case refine_8 =>
    refine settled_envelopeObject (k := lit "causality") (by decide +kernel) ?_
    have hs : isSensitive P ([lit "causality"].map P.lower ++ [P.lower (lit "sequence")])
        (.default P) = false := isSensitive_plainName _ (by decide +kernel)
    simp only [Causality.items, List.forall_mem_cons]
    exact ⟨settled_envelopeText [lit "causality"] (by decide +kernel) _,
      (settled_of_not_sensitive hs).mpr trivial,
      settled_envelopeOptText [lit "causality"] (by decide +kernel) _, by simp⟩
  case refine_9 =>
    refine settled_envelopeObject (k := lit "principal") (by decide +kernel) ?_
    simp only [Principal.items, List.forall_mem_cons]
    refine ⟨?_, ?_, ?_, ?_, ?_, by simp⟩
    case refine_1 | refine_2 =>
      exact settled_envelopeText [lit "principal"] (by decide +kernel) _
    all_goals exact settled_envelopeOptText [lit "principal"] (by decide +kernel) _
  case refine_10 =>
    refine settled_envelopeObject (k := lit "classification") (by decide +kernel) ?_
    simp only [Classification.items, List.forall_mem_cons]
    refine ⟨?_, ?_, by simp⟩ <;>
      exact settled_envelopeText [lit "classification"] (by decide +kernel) _
  case refine_11 =>
    refine settled_envelopeObject (k := lit "integrity") (by decide +kernel) ?_
    simp only [IntegrityMetadata.items, List.forall_mem_cons]
    refine ⟨?_, ?_, ?_, by simp⟩
    case refine_1 => exact settled_envelopeText [lit "integrity"] (by decide +kernel) _
    all_goals exact settled_envelopeOptText [lit "integrity"] (by decide +kernel) _
  all_goals exact settled_envelopeText [] (by decide +kernel) _

end ActionLineage
