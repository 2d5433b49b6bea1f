import ActionLineage.Domain.CaptureBudget
import ActionLineage.Exporters.Profiles
import ActionLineage.Projection.InvestigationGraph

/-!
# Console context — `console_context_from_dict`, `render_console_html`

Notes and saved views are redacted when they are loaded and once more when they are rendered. A text
that is too long is cut off with a note of its length and digest behind it, so it is too long again:
the second pass cuts off the note and writes one about the cut text. The second pass leaves alone
what the first one returned exactly if the redacted text was short and the patterns have nothing left
to replace in it (`console_text_settled_iff`).
-/

namespace ActionLineage

open Py

/-- A note; the optional fields are `None` or text. -/
structure ConsoleNote where
  title : Str
  body : Str
  eventId : Option Str
  author : Option Str

structure ConsoleSavedView where
  name : Str
  query : Str
  description : Str

section Context

variable (P : Platform) (policy : RedactionPolicy)

/-- `_capture_limit_note`, the same text as in the projection's summaries. -/
def captureLimitNote (metadata : Obj) : Except PyError Str :=
  InvestigationGraph.captureMarkerSummary P metadata

/-- `json.dumps(redacted, sort_keys=True)` of the only object but a capture that a text is redacted
to: the marker of a sensitive path. -/
def SENSITIVE_TEXT : Str :=
  lit "\x7b\"marker\": \"actionlineage.redacted.v1\", \"reason\": \"sensitive\", \"value\": \"[REDACTED:sensitive]\"\x7d"

/-- What a redacted text is shown as. -/
def shownText (redacted : Value) : Except PyError Str :=
  match redacted with
  | .str s => .ok s
  | .dict metadata => do
    if InvestigationGraph.isCaptureMarker metadata then
      let captured := match Obj.get? metadata (lit "value") with
        | some (.str s) => s
        | _ => []
      let separator := if captured = [] then [] else lit " "
      .ok (captured ++ separator ++ (← captureLimitNote P metadata))
    else .ok SENSITIVE_TEXT
  | _ => .ok SENSITIVE_TEXT

def redactedContextText (value : Str) : Except PyError Str := do
  shownText P (← policy.apply P (.str value))

/-! ## Loading -/

/-- A `ConsoleContextError` is a `ValueError`. -/
def contextError {α : Type} (message : String) : Except PyError α := .error (.valueError message)

def requiredContextText (item : Obj) (field : String) : Except PyError Str :=
  match item.get? (lit field) with
  | some (.str (c :: s)) => redactedContextText P policy (c :: s)
  | _ => contextError ("console context field is required: " ++ field)

def optionalContextText (item : Obj) (field : String) : Except PyError (Option Str) :=
  match item.get? (lit field) with
  | none | some .null => .ok none
  | some (.str (c :: s)) => (redactedContextText P policy (c :: s)).map some
  | _ => contextError ("console context field must be text: " ++ field)

def noteFromContext (value : Value) : Except PyError ConsoleNote :=
  match value with
  | .dict item => do
    let title ← requiredContextText P policy item "title"
    let body ← requiredContextText P policy item "body"
    let eventId ← optionalContextText P policy item "event_id"
    let author ← optionalContextText P policy item "author"
    .ok { title, body, eventId, author }
  | _ => contextError "console note must be an object"

def savedViewFromContext (value : Value) : Except PyError ConsoleSavedView :=
  match value with
  | .dict item => do
    let name ← requiredContextText P policy item "name"
    let query ← requiredContextText P policy item "query"
    let description ← optionalContextText P policy item "description"
    .ok { name, query, description := description.getD [] }
  | _ => contextError "console saved view must be an object"

/-- `_notes_from_context` and `_saved_views_from_context`. -/
def itemsFromContext {α : Type} (field : String) (decode : Value → Except PyError α)
    (maxContextItems : Nat) (value : Option Value) : Except PyError (List α) :=
  match value with
  | none | some .null => .ok []
  | some (.list items) =>
    if maxContextItems < items.length then
      contextError ("console context " ++ field ++ " exceeds " ++ toString maxContextItems ++
        " item limit")
    else items.mapM decode
  | _ => contextError ("console context " ++ field ++ " must be an array")

def consoleContextFromDict (maxContextItems : Nat) (data : Value) :
    Except PyError (List ConsoleNote × List ConsoleSavedView) :=
  match data with
  | .dict data => do
    let notes ← itemsFromContext "notes" (noteFromContext P policy) maxContextItems
      (Obj.get? data (lit "notes"))
    let savedViews ← itemsFromContext "saved_views" (savedViewFromContext P policy) maxContextItems
      (Obj.get? data (lit "saved_views"))
    .ok (notes, savedViews)
  | _ => contextError "console context must be an object"

/-! ## Rendering -/

/-- `_redacted_context_text(text, policy) if text else None`. -/
def sanitizeOptional (text : Option Str) : Except PyError (Option Str) :=
  match text with
  | some (c :: s) => (redactedContextText P policy (c :: s)).map some
  | _ => .ok none

def sanitizeNote (note : ConsoleNote) : Except PyError ConsoleNote := do
  let title ← redactedContextText P policy note.title
  let body ← redactedContextText P policy note.body
  let eventId ← sanitizeOptional P policy note.eventId
  let author ← sanitizeOptional P policy note.author
  .ok { title, body, eventId, author }

def sanitizeSavedView (savedView : ConsoleSavedView) : Except PyError ConsoleSavedView := do
  let name ← redactedContextText P policy savedView.name
  let query ← redactedContextText P policy savedView.query
  let description ← sanitizeOptional P policy (some savedView.description)
  .ok { name, query, description := description.getD [] }

/-- The notes and saved views `render_console_html` shows. -/
def renderedContext (context : List ConsoleNote × List ConsoleSavedView) :
    Except PyError (List ConsoleNote × List ConsoleSavedView) := do
  .ok (← context.1.mapM (sanitizeNote P policy), ← context.2.mapM (sanitizeSavedView P policy))

end Context

variable {P : Platform}

/-! ## One text -/

theorem not_sensitive_root : isSensitive P [] (.default P) = false := rfl

/-- A text is redacted by the patterns and captured if that is too long. -/
theorem apply_text {s : Str} {w : Value} (h : (RedactionPolicy.default P).apply P (.str s) = .ok w) :
    ∃ t, redactText (.default P) s = .ok t ∧ captureString P 4096 t = .ok w := by
  obtain ⟨-, -, budget, hwalk⟩ := walk_of_apply h
  rcases redacts_shape ⟨_, _, _, hwalk⟩ with ⟨hs, -⟩ | ⟨-, t, ht, hw⟩
  · rw [not_sensitive_root] at hs
    cases hs
  · exact ⟨t, ht, hw⟩

/-- A second pass leaves a text alone exactly if it is short and stable. -/
theorem apply_text_eq_self_iff {s : Str} :
    (RedactionPolicy.default P).apply P (.str s) = .ok (.str s) ↔
      s.length ≤ 4096 ∧ Stable (.default P) s := by
  have hsettled : ∀ Q : Path → Str → Prop, Settled P (.default P) Q [] (.str s) ↔ Q [] s :=
    fun _ => Iff.rfl
  have hfits : Fits .default 0 (.str s) := Nat.zero_le 64
  constructor
  · intro h
    obtain ⟨t, ht, hcapture⟩ := apply_text h
    unfold captureString at hcapture
    split_ifs at hcapture with hneg hlength
    · cases hcapture
      exact ⟨by omega, ht⟩
    · obtain ⟨encoded, -, hcapture⟩ := bind_eq_ok.mp hcapture
      cases hcapture
  · rintro ⟨hlength, hstable⟩
    have hshort : Short (.default P) [] s := .inr (by
      show (s.length : Int) ≤ 4096
      omega)
    exact (apply_eq_self_iff hfits ((hsettled _).mpr hshort)).mpr ((hsettled _).mpr hstable)

/-- The note behind a captured text. -/
def noteText (c : CaptureMetadata) : Str :=
  lit "[TRUNCATED original_length=" ++ (intText c.originalLength).render ++ lit " digest=" ++ c.digest
    ++ lit " digest_scope=" ++ CAPTURE_DIGEST_SCOPE ++ lit "]"

theorem captureLimitNote_eq {c : CaptureMetadata} {metadata : Obj}
    (hc : c.asJson = .dict metadata) : captureLimitNote P metadata =
      if maxIntDigits < (natText c.originalLength).length then .error digitLimit
      else .ok (noteText c) := by
  cases hc
  show (Option.elim (if maxIntDigits < (natText (c.originalLength : Int).natAbs).length then none
      else some (intText c.originalLength).render) (Except.error digitLimit) Except.ok >>=
    fun originalLength => Except.ok (lit "[TRUNCATED original_length=" ++ originalLength
      ++ lit " digest=" ++ c.digest ++ lit " digest_scope=" ++ CAPTURE_DIGEST_SCOPE ++ lit "]")) = _
  rw [Int.natAbs_natCast]
  split
  · rfl
  · rfl

/-- A captured text is shown with its note behind it. -/
theorem shownText_capture {c : CaptureMetadata} (hvalue : c.value ≠ []) :
    shownText P c.asJson = if maxIntDigits < (natText c.originalLength).length
      then .error digitLimit else .ok (c.value ++ lit " " ++ noteText c) := by
  have hmarker : ∀ metadata, c.asJson = .dict metadata →
      InvestigationGraph.isCaptureMarker metadata = true := by
    rintro _ ⟨⟩
    rfl
  have hcaptured : ∀ metadata, c.asJson = .dict metadata →
      Obj.get? metadata (lit "value") = some (.str c.value) := by
    rintro _ ⟨⟩
    rfl
  cases hjson : c.asJson with
  | dict metadata =>
    unfold shownText
    simp only [hmarker metadata hjson, hcaptured metadata hjson, if_true, hvalue, if_false,
      captureLimitNote_eq hjson]
    split
    · rfl
    · rfl
  | _ => cases hjson

/-- What a text is shown as: the redacted text, or its first part and a note about it. -/
theorem redactedContextText_cases {s shown : Str}
    (h : redactedContextText P (.default P) s = .ok shown) :
    ∃ t, redactText (.default P) s = .ok t ∧
      ((t.length ≤ 4096 ∧ shown = t) ∨ (4096 < t.length ∧ ∃ c : CaptureMetadata,
        c.value = t.take 4096 ∧ c.originalLength = t.length ∧
          shown = c.value ++ lit " " ++ noteText c)) := by
  obtain ⟨w, hw, hshown⟩ := bind_eq_ok.mp h
  obtain ⟨t, ht, hcapture⟩ := apply_text hw
  refine ⟨t, ht, ?_⟩
  unfold captureString at hcapture
  split_ifs at hcapture with hneg hlength
  · cases hcapture
    exact .inl ⟨by omega, (Except.ok.inj hshown).symm⟩
  · obtain ⟨encoded, -, hcapture⟩ := bind_eq_ok.mp hcapture
    cases hcapture
    have hlong : 4096 < t.length := by omega
    have hne : t.take 4096 ≠ [] := by
      rw [Ne, ← List.length_eq_zero_iff, List.length_take]
      omega
    rw [shownText_capture hne] at hshown
    split at hshown
    · cases hshown
    · exact .inr ⟨hlong, _, rfl, rfl, (Except.ok.inj hshown).symm⟩

/-- **Console context.** The second pass leaves alone what the first one shows exactly if the
redacted text is short and stable. -/
theorem console_text_settled_iff (P : Platform) (value once : Str)
    (h : redactedContextText P (.default P) value = .ok once) :
    ((RedactionPolicy.default P).apply P (.str once) = .ok (.str once) ∧
        redactedContextText P (.default P) once = .ok once) ↔
      ∃ t, redactText (.default P) value = .ok t ∧ t.length ≤ 4096 ∧
        redactText (.default P) t = .ok t := by
  have hshown : (RedactionPolicy.default P).apply P (.str once) = .ok (.str once) →
      redactedContextText P (.default P) once = .ok once := by
    intro happly
    unfold redactedContextText
    rw [happly]
    rfl
  rw [and_iff_left_of_imp hshown, apply_text_eq_self_iff]
  obtain ⟨t, ht, ⟨hlength, rfl⟩ | ⟨hlong, c, hvalue, -, rfl⟩⟩ := redactedContextText_cases h
  · constructor
    · rintro ⟨-, hstable⟩
      exact ⟨once, ht, hlength, hstable⟩
    · rintro ⟨t', ht', hlength', hstable⟩
      rw [ht] at ht'
      cases ht'
      exact ⟨hlength', hstable⟩
  · refine iff_of_false ?_ ?_
    · rintro ⟨hshort, -⟩
      rw [List.length_append, List.length_append, hvalue, List.length_take] at hshort
      have : (lit " ").length = 1 := rfl
      omega
    · rintro ⟨t', ht', hlength', -⟩
      rw [ht] at ht'
      cases ht'
      omega

theorem console_text_settled_iff_sample :
    ∃ once, redactedContextText .plain (.default .plain) (lit "checked") = .ok once ∧
      (RedactionPolicy.default .plain).apply .plain (.str once) = .ok (.str once) := by
  obtain ⟨once, honce⟩ : ∃ once,
      redactedContextText .plain (.default .plain) (lit "checked") = .ok once :=
    exists_of_isOk (by decide +kernel)
  have hstable : redactText (.default .plain) (lit "checked") = .ok (lit "checked") := by
    decide +kernel
  exact ⟨once, honce, ((console_text_settled_iff .plain (lit "checked") once honce).mpr
    ⟨lit "checked", hstable, by decide, hstable⟩).1⟩

/-! ## The whole context -/

def ConsoleNote.optionalTexts (note : ConsoleNote) : List Str :=
  note.eventId.toList ++ note.author.toList

/-- The second pass leaves every text alone, and no optional text is empty. -/
structure ConsoleNote.Settled (P : Platform) (note : ConsoleNote) : Prop where
  texts : ∀ t ∈ note.title :: note.body :: note.optionalTexts,
    redactedContextText P (.default P) t = .ok t
  optional : ∀ t ∈ note.optionalTexts, t ≠ []

structure ConsoleSavedView.Settled (P : Platform) (savedView : ConsoleSavedView) : Prop where
  name : redactedContextText P (.default P) savedView.name = .ok savedView.name
  query : redactedContextText P (.default P) savedView.query = .ok savedView.query
  description : savedView.description ≠ [] →
    redactedContextText P (.default P) savedView.description = .ok savedView.description

theorem sanitizeOptional_eq_self {text : Option Str}
    (h : ∀ t ∈ text.toList, t ≠ [] ∧ redactedContextText P (.default P) t = .ok t) :
    sanitizeOptional P (.default P) text = .ok text := by
  cases text with
  | none => rfl
  | some t =>
    obtain ⟨hne, ht⟩ := h t (List.mem_singleton_self t)
    cases t with
    | nil => exact absurd rfl hne
    | cons c s =>
      show (redactedContextText P (.default P) (c :: s)).map some = _
      rw [ht]
      rfl

theorem sanitizeNote_eq_self {note : ConsoleNote} (h : note.Settled P) :
    sanitizeNote P (.default P) note = .ok note := by
  have hoptional : ∀ t ∈ note.optionalTexts,
      t ≠ [] ∧ redactedContextText P (.default P) t = .ok t := fun t ht =>
    ⟨h.optional t ht, h.texts t (List.mem_cons_of_mem _ (List.mem_cons_of_mem _ ht))⟩
  unfold sanitizeNote
  rw [h.texts note.title (by simp), h.texts note.body (by simp),
    sanitizeOptional_eq_self fun t ht => hoptional t (List.mem_append_left _ ht),
    sanitizeOptional_eq_self fun t ht => hoptional t (List.mem_append_right _ ht)]
  rfl

theorem sanitizeSavedView_eq_self {savedView : ConsoleSavedView} (h : savedView.Settled P) :
    sanitizeSavedView P (.default P) savedView = .ok savedView := by
  obtain ⟨name, query, description⟩ := savedView
  unfold sanitizeSavedView
  rw [h.name, h.query]
  cases description with
  | nil => rfl
  | cons c s =>
    rw [sanitizeOptional_eq_self fun t ht => by
      rw [List.mem_singleton.mp ht]
      exact ⟨List.cons_ne_nil _ _, h.description (List.cons_ne_nil _ _)⟩]
    rfl

/-- A context whose texts are settled is rendered as it was loaded. -/
theorem renderedContext_eq_self {context : List ConsoleNote × List ConsoleSavedView}
    (hnotes : ∀ note ∈ context.1, note.Settled P)
    (hviews : ∀ savedView ∈ context.2, savedView.Settled P) :
    renderedContext P (.default P) context = .ok context := by
  have hself : ∀ {α : Type} {f : α → Except PyError α} {xs : List α}, (∀ x ∈ xs, f x = .ok x) →
      xs.mapM f = .ok xs := fun h => mapM_eq_ok.mpr (List.forall₂_same.mpr h)
  unfold renderedContext
  rw [hself fun note hnote => sanitizeNote_eq_self (hnotes note hnote),
    hself fun savedView hview => sanitizeSavedView_eq_self (hviews savedView hview)]
  rfl

/-! ## A text of 4097 characters -/

theorem utf8Bytes_length_le (s : Str) : (utf8Bytes s).length ≤ 4 * s.length := by
  have hchar : ∀ c : CodePoint, (utf8Char c).length ≤ 4 := by
    intro c
    unfold utf8Char
    split_ifs <;> simp
  induction s with
  | nil => rfl
  | cons c s ih =>
    have := hchar c
    rw [utf8Bytes_cons, List.length_append, List.length_cons]
    omega

/-- A text that is redacted to a long one can be captured if it can be encoded. -/
theorem apply_long {s t : Str} (ht : redactText (.default P) s = .ok t) (hlong : 4096 < t.length)
    (hfree : SurrogateFree t) :
    ∃ c : CaptureMetadata, (RedactionPolicy.default P).apply P (.str s) = .ok c.asJson ∧
      c.value = t.take 4096 ∧ c.originalLength = t.length := by
  have hencode : ∀ u, SurrogateFree u → encodeUtf8 u = .ok (utf8Bytes u) := by
    intro u hu
    unfold encodeUtf8
    rw [utf8Encode_eq_some.mpr ⟨hu, rfl⟩]
    rfl
  let c : CaptureMetadata :=
    { encoding := lit "text", value := t.take 4096, originalLength := t.length
      capturedLength := (t.take 4096).length, truncated := true
      digest := sha256ScopedCaptureBytes P (lit "text") (utf8Bytes t) }
  have hcapture : captureString P 4096 t = .ok c.asJson := by
    unfold captureString
    rw [if_neg (by decide), if_neg (by omega), hencode t hfree]
    rfl
  have hsize : (utf8Bytes (t.take 4096)).length ≤ 16384 := by
    have := utf8Bytes_length_le (t.take 4096)
    have := List.length_take_le 4096 t
    omega
  have hrecord : recordCapture c.asJson ⟨128, 65536, 0, 0⟩
      = .ok ⟨128, 65536, 1, (utf8Bytes (t.take 4096)).length⟩ := by
    show (encodeUtf8 (t.take 4096) >>= fun encoded =>
      CaptureBudget.record ⟨128, 65536, 0, 0⟩ encoded.length) = _
    rw [hencode _ fun x hx => hfree x (List.mem_of_mem_take hx)]
    show CaptureBudget.record ⟨128, 65536, 0, 0⟩ (utf8Bytes (t.take 4096)).length = _
    unfold CaptureBudget.record
    dsimp only
    rw [if_neg (by decide), if_neg (by omega), Int.zero_add, Int.zero_add]
  have hwalk : redactValue P (.default P) [] 0 ⟨128, 65536, 0, 0⟩ (.str s)
      = .ok (c.asJson, ⟨128, 65536, 1, (utf8Bytes (t.take 4096)).length⟩) := by
    show redactStr P (.default P) [] s ⟨128, 65536, 0, 0⟩ = _
    unfold redactStr
    rw [ht]
    show (do
      let captured ← captureString P 4096 t
      let budget ← recordCapture captured ⟨128, 65536, 0, 0⟩
      Except.ok (captured, budget)) = _
    rw [hcapture]
    show (do
      let budget ← recordCapture c.asJson ⟨128, 65536, 0, 0⟩
      Except.ok (c.asJson, budget)) = _
    rw [hrecord]
    rfl
  have hbudget : captureBudget (.default P) = .ok ⟨128, 65536, 0, 0⟩ := rfl
  refine ⟨c, ?_, rfl, rfl⟩
  unfold RedactionPolicy.apply
  simp only [hbudget, bind, Except.bind, hwalk]

/-- A note states the length. -/
theorem originalLength_of_noteText {c c' : CaptureMetadata} (h : noteText c = noteText c') :
    c.originalLength = c'.originalLength := by
  have hrender : ∀ n : Nat, (intText n).render = natText n := by
    intro n
    simp [intText, NumText.render, NumText.fracText, NumText.expText]
  have hdigits : ∀ n tail, (natText n ++ cp ' ' :: tail).takeWhile isDigit = natText n := by
    intro n tail
    rw [List.takeWhile_append_of_pos (natText_digits n)]
    exact List.append_nil _
  unfold noteText at h
  simp only [hrender, List.append_assoc] at h
  have htails := congrArg (List.takeWhile isDigit) (List.append_cancel_left h)
  have htext : natText c.originalLength = natText c'.originalLength :=
    (hdigits _ _).symm.trans (htails.trans (hdigits _ _))
  rw [← readNat_natText c.originalLength, htext, readNat_natText]

/-- What a text of `a`s that is cut off begins with. -/
def cutOff (n : Nat) : Str := List.replicate (n + 2) (cp 'a') ++ lit " [TRUNCATED"

theorem noMatchIn_cutOff (n : Nat) : ∀ rule ∈ DEFAULT_RULES P, NoMatchIn rule.1 none (cutOff n) := by
  intro rule hrule
  -- No pattern matches at an `a` behind an `a`, at the two `a`s of the start, or in the note.
  have hinside : (∀ rest, rule.1.attempt ⟨some (cp 'a'), cp 'a' :: rest, none⟩ = []) ∧
      (∀ rest, rule.1.attempt ⟨none, cp 'a' :: cp 'a' :: rest, none⟩ = []) ∧
      NoMatchIn rule.1 (some (cp 'a')) (lit " [TRUNCATED") := by
    simp only [DEFAULT_RULES, List.mem_cons, List.not_mem_nil, or_false] at hrule
    rcases hrule with rfl | rfl | rfl | rfl | rfl <;>
      exact ⟨fun _ => rfl, fun _ => rfl, fun _ => rfl, fun _ => rfl, fun _ => rfl, fun _ => rfl,
        fun _ => rfl, fun _ => rfl, fun _ => rfl, fun _ => rfl, fun _ => rfl, fun _ => rfl,
        fun _ => rfl, trivial⟩
  obtain ⟨hbehind, hstart, hnote⟩ := hinside
  have hrun : ∀ n, NoMatchIn rule.1 (some (cp 'a'))
      (List.replicate n (cp 'a') ++ lit " [TRUNCATED") := by
    intro n
    induction n with
    | zero => exact hnote
    | succ n ih => exact ⟨fun rest => hbehind _, ih⟩
  exact ⟨fun rest => hstart _, hrun (n + 1)⟩

/-- The default patterns keep it. -/
theorem redactText_cutOff {n : Nat} {rest t : Str}
    (h : redactText (.default P) (cutOff n ++ rest) = .ok t) : ∃ rest', t = cutOff n ++ rest' := by
  have hfold : ∀ rules : List (Re × List Piece),
      (∀ rule ∈ rules, NoMatchIn rule.1 none (cutOff n)) → ∀ rest t,
        (rules.map fun rule => (⟨fun s => .ok (rule.1.sub rule.2 s)⟩ : RedactionPattern)).foldlM
          (fun redacted pattern => pattern.apply redacted) (cutOff n ++ rest) = .ok t →
            ∃ rest', t = cutOff n ++ rest' := by
    intro rules
    induction rules with
    | nil =>
      intro _ rest t ht
      exact ⟨rest, (Except.ok.inj ht).symm⟩
    | cons rule rules ih =>
      intro hrules rest t ht
      have hfuel : (cutOff n).length ≤ (cutOff n ++ rest).length := by
        rw [List.length_append]
        exact Nat.le_add_right _ _
      obtain ⟨rest', hrest'⟩ := (hrules rule List.mem_cons_self).subFrom rule.2 hfuel rest
      rw [List.map_cons, List.foldlM_cons] at ht
      obtain ⟨s, hs, ht⟩ := bind_eq_ok.mp ht
      obtain rfl := Except.ok.inj hs
      unfold Re.sub at ht
      rw [hrest'] at ht
      exact ih (fun r hr => hrules r (List.mem_cons_of_mem _ hr)) rest' t ht
  exact hfold (DEFAULT_RULES P) (noMatchIn_cutOff n) rest t h

/-- A text one character too long. -/
def longText : Str := List.replicate 4097 (cp 'a')

theorem redactText_longText : redactText (.default P) longText = .ok longText := by
  refine redactText_eq_self fun p hp => ?_
  obtain ⟨rule, hrule, rfl⟩ := List.mem_map.mp hp
  have hneeds : (DEFAULT_RULES P).all (fun rule => rule.1.needs [cp 'a']) = true := rfl
  refine congrArg Except.ok (Re.sub_of_needs (List.all_eq_true.mp hneeds rule hrule) rule.2 ?_)
  exact fun x hx => List.mem_singleton.mpr (List.eq_of_mem_replicate hx)

/-- The note starts behind the cut text, and what the patterns leave of it is as long. -/
theorem length_of_redacted_note {c : CaptureMetadata} {t : Str}
    (hvalue : c.value = List.replicate 4096 (cp 'a'))
    (h : redactText (.default P) (c.value ++ lit " " ++ noteText c) = .ok t) :
    4097 < t.length := by
  obtain ⟨n, hn⟩ : ∃ n, 4096 = n + 2 := ⟨4094, rfl⟩
  have hnote : ∃ rest, lit " " ++ noteText c = lit " [TRUNCATED" ++ rest := by
    unfold noteText
    simp only [List.append_assoc]
    exact ⟨_, List.append_assoc (lit " [TRUNCATED") (lit " original_length=") _⟩
  obtain ⟨rest, hrest⟩ := hnote
  rw [hvalue, hn, List.append_assoc, hrest, ← List.append_assoc] at h
  obtain ⟨rest', rfl⟩ := redactText_cutOff (n := n) h
  have : (lit " [TRUNCATED").length = 11 := by decide
  unfold cutOff
  rw [List.length_append, List.length_append, List.length_replicate]
  omega

/-- Its note is cut off, and replaced by one about the cut text. -/
theorem truncated_note_is_truncated :
    ∃ once, redactedContextText .plain (.default .plain) longText = .ok once ∧
      redactedContextText .plain (.default .plain) once ≠ .ok once := by
  have hlength : longText.length = 4097 := List.length_replicate
  have hfree : SurrogateFree longText := by
    intro x hx
    rw [List.eq_of_mem_replicate hx]
    decide
  have hstable : redactText (.default .plain) longText = .ok longText := redactText_longText
  obtain ⟨c, happly, hvalue, horiginal⟩ := apply_long hstable (by omega) hfree
  have hcut : c.value = List.replicate 4096 (cp 'a') := by
    rw [hvalue, longText, List.take_replicate]
    rfl
  have hne : c.value ≠ [] := by
    rw [hcut, Ne, List.replicate_eq_nil_iff]
    decide
  have honce : redactedContextText .plain (.default .plain) longText
      = .ok (c.value ++ lit " " ++ noteText c) := by
    unfold redactedContextText
    rw [happly]
    show shownText .plain c.asJson = _
    rw [shownText_capture hne, horiginal, hlength, if_neg (by decide)]
  refine ⟨_, honce, fun htwice => ?_⟩
  obtain ⟨t, ht, ⟨hshort, -⟩ | ⟨-, c', hvalue', horiginal', hshown⟩⟩ :=
    redactedContextText_cases htwice
  · have := length_of_redacted_note hcut ht
    omega
  · -- Equal texts have equal notes, and these state the length.
    have hlong := length_of_redacted_note hcut ht
    have hcut' : c'.value.length = c.value.length := by
      rw [hvalue', hcut, List.length_take, List.length_replicate]
      omega
    rw [List.append_assoc, List.append_assoc] at hshown
    have hnotes := (List.append_inj hshown hcut'.symm).2
    have hsame := originalLength_of_noteText (List.append_cancel_left hnotes)
    rw [horiginal, hlength, horiginal'] at hsame
    omega

end ActionLineage
