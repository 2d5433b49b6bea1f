import ActionLineage.Py.Results
import ActionLineage.Py.Value

/-!
# `json.dumps(v, ensure_ascii=False, separators=(",", ":"), sort_keys=True, allow_nan=False)`

`emit` writes a value whose dicts are already in the order they are written; `dumps` sorts first
and `dumpBytes` encodes the text. Each way the call can raise is a `DumpError`.

The text has no control character (`emit_printed`), so one document is one line.
-/

namespace Py

inductive DumpError
  /-- `ValueError`: the decimal text of an integer would exceed 4300 digits. -/
  | intDigits
  /-- `ValueError`: NaN or an infinity under `allow_nan=False`. -/
  | notFinite
  /-- `TypeError`: `bytes` is not JSON serializable. -/
  | notSerializable
  /-- `UnicodeEncodeError`: a lone surrogate. -/
  | surrogate
deriving DecidableEq, Repr

/-- `sys.get_int_max_str_digits()`. -/
def maxIntDigits : Nat := 4300

def hexDigit (n : Nat) : CodePoint :=
  if n % 16 < 10 then ⟨48 + n % 16, by omega⟩ else ⟨87 + n % 16, by omega⟩

/-- The escapes of `ensure_ascii=False`. -/
def escapeChar (c : CodePoint) : Str :=
  if c = cp '"' then lit "\\\""
  else if c = cp '\\' then lit "\\\\"
  else if c.val = 10 then lit "\\n"
  else if c.val = 13 then lit "\\r"
  else if c.val = 9 then lit "\\t"
  else if c.val = 12 then lit "\\f"
  else if c.val = 8 then lit "\\b"
  else if c.val < 0x20 then lit "\\u00" ++ [hexDigit (c.val / 16), hexDigit c.val]
  else [c]

def quote (s : Str) : Str := cp '"' :: (s.flatMap escapeChar ++ [cp '"'])

def joinComma : List Str → Str
  | [] => []
  | t :: ts => t ++ ts.flatMap fun t => cp ',' :: t

mutual

def emit : Value → Except DumpError Str
  | .null => .ok (lit "null")
  | .bool b => .ok (if b then lit "true" else lit "false")
  | .int i =>
    if maxIntDigits < (natText i.natAbs).length then .error .intDigits
    else .ok (intText i).render
  | .float (.finite neg bits) => .ok (floatText neg bits).render
  | .float _ => .error .notFinite
  | .str s => .ok (quote s)
  | .bytes _ => .error .notSerializable
  | .list xs => do .ok (cp '[' :: (joinComma (← emitList xs) ++ [cp ']']))
  | .dict kvs => do .ok (cp '{' :: (joinComma (← emitObj kvs) ++ [cp '}']))

def emitList : List Value → Except DumpError (List Str)
  | [] => .ok []
  | x :: xs => do .ok ((← emit x) :: (← emitList xs))

def emitObj : Obj → Except DumpError (List Str)
  | [] => .ok []
  | (k, v) :: kvs => do .ok ((quote k ++ cp ':' :: (← emit v)) :: (← emitObj kvs))

end

def dumps (v : Value) : Except DumpError Str := emit v.sortKeys

/-- `dumps(v).encode("utf-8")`. -/
def dumpBytes (v : Value) : Except DumpError Bytes := do
  (utf8Encode (← dumps v)).elim (.error .surrogate) .ok

/-! ## What a successful call says -/

theorem emitList_eq_ok {xs : List Value} {ts : List Str} :
    emitList xs = .ok ts ↔ List.Forall₂ (fun x t => emit x = .ok t) xs ts := by
  induction xs generalizing ts with
  | nil =>
    simp only [emitList, Except.ok.injEq, List.forall₂_nil_left_iff]
    exact eq_comm
  | cons x xs ih =>
    rw [List.forall₂_cons_left_iff]
    simp only [← ih, emitList]
    cases emit x <;> cases emitList xs <;> simp [bind, Except.bind, eq_comm]

/-- The text of one item of a dict. -/
def EmitsItem (p : Str × Value) (t : Str) : Prop :=
  ∃ tv, emit p.2 = .ok tv ∧ t = quote p.1 ++ cp ':' :: tv

theorem emitObj_eq_ok {kvs : Obj} {ts : List Str} :
    emitObj kvs = .ok ts ↔ List.Forall₂ EmitsItem kvs ts := by
  induction kvs generalizing ts with
  | nil =>
    simp only [emitObj, Except.ok.injEq, List.forall₂_nil_left_iff]
    exact eq_comm
  | cons p kvs ih =>
    obtain ⟨k, v⟩ := p
    rw [List.forall₂_cons_left_iff]
    simp only [← ih, emitObj, EmitsItem]
    cases emit v <;> cases emitObj kvs <;> simp [bind, Except.bind, eq_comm]

theorem emit_list_eq_ok {xs : List Value} {t : Str} :
    emit (.list xs) = .ok t ↔ ∃ ts, List.Forall₂ (fun x t => emit x = .ok t) xs ts ∧
      t = cp '[' :: (joinComma ts ++ [cp ']']) := by
  simp only [← emitList_eq_ok, emit]
  cases emitList xs <;> simp [bind, Except.bind, eq_comm]

theorem emit_dict_eq_ok {kvs : Obj} {t : Str} :
    emit (.dict kvs) = .ok t ↔ ∃ ts, List.Forall₂ EmitsItem kvs ts ∧
      t = cp '{' :: (joinComma ts ++ [cp '}']) := by
  simp only [← emitObj_eq_ok, emit]
  cases emitObj kvs <;> simp [bind, Except.bind, eq_comm]

theorem dumpBytes_eq_ok {v : Value} {b : Bytes} :
    dumpBytes v = .ok b ↔ ∃ t, emit v.sortKeys = .ok t ∧ SurrogateFree t ∧ b = utf8Bytes t := by
  simp only [dumpBytes, dumps]
  cases emit v.sortKeys with
  | error e => simp [bind, Except.bind]
  | ok t =>
    simp only [bind, Except.bind, Except.ok.injEq, exists_eq_left']
    cases he : utf8Encode t with
    | none => simp [utf8Encode_eq_none.mp he]
    | some b' =>
      obtain ⟨henc, hb⟩ := utf8Encode_eq_some.mp he
      simp [henc, ← hb, eq_comm]

/-- Writing does not depend on the order a dict was built in, only on its sorted form. -/
theorem dumpBytes_sortKeys (v : Value) : dumpBytes v.sortKeys = dumpBytes v := by
  simp only [dumpBytes, dumps, Value.sortKeys_idem]

/-! ## Which characters the text is made of -/

theorem hexDigit_printed (n : Nat) : 32 ≤ (hexDigit n).val := by
  unfold hexDigit
  split <;> simp only <;> omega

theorem printed_of_all {s : Str} (h : s.all (fun c => 32 ≤ c.val) = true) :
    ∀ c ∈ s, 32 ≤ c.val := by
  simpa using h

theorem escapeChar_printed (c : CodePoint) : ∀ d ∈ escapeChar c, 32 ≤ d.val := by
  unfold escapeChar
  split_ifs with _ _ _ _ _ _ _ hcontrol
  any_goals
    apply printed_of_all
    decide
  · intro d hd
    rcases List.mem_append.mp hd with hd | hd
    · exact printed_of_all (s := lit "\\u00") (by decide) d hd
    · simp only [List.mem_cons, List.not_mem_nil, or_false] at hd
      rcases hd with rfl | rfl <;> exact hexDigit_printed _
  · intro d hd
    rw [List.mem_singleton.mp hd]
    exact not_lt.mp hcontrol

theorem quote_printed (s : Str) : ∀ c ∈ quote s, 32 ≤ c.val := by
  intro c hc
  rcases List.mem_cons.mp hc with rfl | hc
  · decide
  rcases List.mem_append.mp hc with hc | hc
  · obtain ⟨d, _, hd⟩ := List.mem_flatMap.mp hc
    exact escapeChar_printed d c hd
  · rw [List.mem_singleton.mp hc]
    decide

theorem isNumberChar_printed {c : CodePoint} (h : isNumberChar c = true) : 32 ≤ c.val := by
  simp only [isNumberChar, isDigit, Bool.or_eq_true, Bool.and_eq_true, decide_eq_true_eq,
    beq_iff_eq] at h
  rcases h with ((((hdigit | rfl) | rfl) | rfl) | rfl) | rfl
  · omega
  all_goals decide

theorem mem_joinComma {ts : List Str} {c : CodePoint} (h : c ∈ joinComma ts) :
    c = cp ',' ∨ ∃ t ∈ ts, c ∈ t := by
  cases ts with
  | nil => simp [joinComma] at h
  | cons t ts =>
    rcases List.mem_append.mp h with h | h
    · exact .inr ⟨t, by simp, h⟩
    · obtain ⟨u, hu, hc⟩ := List.mem_flatMap.mp h
      rcases List.mem_cons.mp hc with rfl | hc
      · exact .inl rfl
      · exact .inr ⟨u, List.mem_cons_of_mem _ hu, hc⟩

theorem emit_printed {v : Value} {t : Str} (h : emit v = .ok t) : ∀ c ∈ t, 32 ≤ c.val := by
  induction v generalizing t with
  | null =>
    obtain rfl : lit "null" = t := by simpa [emit] using h
    exact printed_of_all (by decide)
  | bool b =>
    obtain rfl : (if b then lit "true" else lit "false") = t := by simpa [emit] using h
    cases b <;> exact printed_of_all (by decide)
  | int i =>
    simp only [emit] at h
    split at h
    · cases h
    · obtain rfl := Except.ok.inj h
      intro c hc
      exact isNumberChar_printed (render_numberChars (intText_wellFormed i) c hc)
  | float x =>
    cases x with
    | finite neg bits =>
      obtain rfl : (floatText neg bits).render = t := by simpa [emit] using h
      intro c hc
      exact isNumberChar_printed (render_numberChars (floatText_spec neg bits).1 c hc)
    | inf neg => simp [emit] at h
    | nan => simp [emit] at h
  | str s =>
    obtain rfl : quote s = t := by simpa [emit] using h
    exact quote_printed s
  | bytes b => simp [emit] at h
  | list xs ih =>
    obtain ⟨ts, hts, rfl⟩ := emit_list_eq_ok.mp h
    intro c hc
    rcases List.mem_cons.mp hc with rfl | hc
    · decide
    rcases List.mem_append.mp hc with hc | hc
    · rcases mem_joinComma hc with rfl | ⟨t, ht, hc⟩
      · decide
      · obtain ⟨x, hx, hxt⟩ := exists_of_forall₂ hts ht
        exact ih x hx hxt c hc
    · rw [List.mem_singleton.mp hc]
      decide
  | dict kvs ih =>
    obtain ⟨ts, hts, rfl⟩ := emit_dict_eq_ok.mp h
    intro c hc
    rcases List.mem_cons.mp hc with rfl | hc
    · decide
    rcases List.mem_append.mp hc with hc | hc
    · rcases mem_joinComma hc with rfl | ⟨t, ht, hc⟩
      · decide
      · obtain ⟨p, hp, tv, htv, rfl⟩ := exists_of_forall₂ hts ht
        rcases List.mem_append.mp hc with hc | hc
        · exact quote_printed _ c hc
        rcases List.mem_cons.mp hc with rfl | hc
        · decide
        · exact ih p hp htv c hc
    · rw [List.mem_singleton.mp hc]
      decide

theorem dumpBytes_printed {v : Value} {b : Bytes} (h : dumpBytes v = .ok b) :
    ∀ x ∈ b, 32 ≤ x.val := by
  obtain ⟨t, ht, -, rfl⟩ := dumpBytes_eq_ok.mp h
  exact printed_of_mem_utf8Bytes (emit_printed ht)

theorem newline_notMem_dumpBytes {v : Value} {b : Bytes} (h : dumpBytes v = .ok b) :
    newline ∉ b := by
  intro hmem
  have : 32 ≤ newline.val := dumpBytes_printed h newline hmem
  exact absurd this (by decide)

/-! ## Encoding -/

theorem surrogateFree_of_escaped {s : Str} (h : SurrogateFree (s.flatMap escapeChar)) :
    SurrogateFree s := by
  intro c hc
  by_contra hsur
  simp only [Bool.not_eq_false] at hsur
  -- a surrogate is not escaped, so it stands in the text as it is
  have hraw : escapeChar c = [c] := by
    simp only [isSurrogate, Bool.and_eq_true, decide_eq_true_eq] at hsur
    have hq : c ≠ cp '"' := by rintro rfl; revert hsur; decide
    have hb : c ≠ cp '\\' := by rintro rfl; revert hsur; decide
    unfold escapeChar
    rw [if_neg hq, if_neg hb, if_neg (by omega), if_neg (by omega), if_neg (by omega),
      if_neg (by omega), if_neg (by omega), if_neg (by omega)]
  have := h c (List.mem_flatMap.mpr ⟨c, hc, by simp [hraw]⟩)
  rw [hsur] at this
  cases this

theorem surrogateFree_of_quote {s : Str} (h : SurrogateFree (quote s)) : SurrogateFree s := by
  rw [quote, surrogateFree_cons_iff, surrogateFree_append_iff] at h
  exact surrogateFree_of_escaped h.2.1

theorem surrogateFree_of_joinComma {ts : List Str} (h : SurrogateFree (joinComma ts)) {t : Str}
    (ht : t ∈ ts) : SurrogateFree t := by
  cases ts with
  | nil => simp at ht
  | cons u ts =>
    rw [joinComma, surrogateFree_append_iff] at h
    rcases List.mem_cons.mp ht with rfl | ht
    · exact h.1
    · intro c hc
      exact h.2 c (List.mem_flatMap.mpr ⟨t, ht, List.mem_cons_of_mem _ hc⟩)

/-! ## What can be written -/

/-- A leaf `json.dumps` can write and UTF-8 can encode. -/
def DumpsLeaf : Value → Prop
  | .int i => (natText i.natAbs).length ≤ maxIntDigits
  | .float x => x.isFinite = true
  | .str s => SurrogateFree s
  | .bytes _ => False
  | _ => True

def Dumpable (v : Value) : Prop := v.All DumpsLeaf fun keys => ∀ k ∈ keys, SurrogateFree k

theorem Dumpable.texts {v : Value} (h : Dumpable v) : v.TextsSurrogateFree := by
  refine h.mono (fun v hv => ?_) fun _ hk => hk
  cases v with
  | str s => exact hv
  | _ => trivial

/-- Text that can be encoded is the text of a value that can be written. -/
theorem dumpable_of_emit {v : Value} {t : Str} (he : emit v = .ok t) (ht : SurrogateFree t) :
    Dumpable v := by
  induction v generalizing t with
  | str s =>
    obtain rfl : quote s = t := by simpa [emit] using he
    exact surrogateFree_of_quote ht
  | int i =>
    rw [emit] at he
    split_ifs at he with hlen
    exact Nat.le_of_not_lt hlen
  | float x =>
    cases x with
    | finite neg bits => rfl
    | _ => simp [emit] at he
  | bytes b => simp [emit] at he
  | list xs ih =>
    obtain ⟨ts, hts, rfl⟩ := emit_list_eq_ok.mp he
    rw [surrogateFree_cons_iff, surrogateFree_append_iff] at ht
    refine (Value.all_list xs).mpr fun x hx => ?_
    obtain ⟨u, hu, hxu⟩ := forall₂_mem_left hts hx
    exact ih x hx hxu (surrogateFree_of_joinComma ht.2.1 hu)
  | dict kvs ih =>
    obtain ⟨ts, hts, rfl⟩ := emit_dict_eq_ok.mp he
    rw [surrogateFree_cons_iff, surrogateFree_append_iff] at ht
    have hitem : ∀ p ∈ kvs, SurrogateFree p.1 ∧ Dumpable p.2 := by
      intro p hp
      obtain ⟨u, hu, tv, htv, rfl⟩ := forall₂_mem_left hts hp
      have hfree := surrogateFree_of_joinComma ht.2.1 hu
      rw [surrogateFree_append_iff, surrogateFree_cons_iff] at hfree
      exact ⟨surrogateFree_of_quote hfree.1, ih p hp htv hfree.2.2⟩
    refine (Value.all_dict kvs).mpr ⟨?_, fun p hp => (hitem p hp).2⟩
    intro k hk
    obtain ⟨p, hp, rfl⟩ := List.mem_map.mp hk
    exact (hitem p hp).1
  | _ => trivial

theorem surrogateFree_of_all {s : Str} (h : s.all (fun c => !isSurrogate c) = true) :
    SurrogateFree s := by
  simpa [SurrogateFree] using h

theorem surrogateFree_escapeChar {c : CodePoint} (hc : isSurrogate c = false) :
    SurrogateFree (escapeChar c) := by
  unfold escapeChar
  split_ifs
  any_goals
    apply surrogateFree_of_all
    decide
  · rw [surrogateFree_append_iff]
    refine ⟨surrogateFree_of_all (by decide), fun d hd => ?_⟩
    have hhex : ∀ n, isSurrogate (hexDigit n) = false := fun n => by
      unfold hexDigit
      split <;> simp only [isSurrogate, Bool.and_eq_false_iff, decide_eq_false_iff_not] <;> omega
    simp only [List.mem_cons, List.not_mem_nil, or_false] at hd
    rcases hd with rfl | rfl <;> exact hhex _
  · intro d hd
    rw [List.mem_singleton.mp hd]
    exact hc

theorem surrogateFree_quote {s : Str} (h : SurrogateFree s) : SurrogateFree (quote s) := by
  rw [quote, surrogateFree_cons_iff, surrogateFree_append_iff]
  refine ⟨by decide, fun c hc => ?_, surrogateFree_of_all (by decide)⟩
  obtain ⟨d, hd, hc⟩ := List.mem_flatMap.mp hc
  exact surrogateFree_escapeChar (h d hd) c hc

theorem surrogateFree_number {s : Str} (h : ∀ c ∈ s, isNumberChar c = true) : SurrogateFree s := by
  intro c hc
  have hnum := h c hc
  simp only [isNumberChar, Bool.or_eq_true, beq_iff_eq] at hnum
  rcases hnum with ((((hd | rfl) | rfl) | rfl) | rfl) | rfl
  · exact isSurrogate_of_isDigit hd
  all_goals decide

theorem surrogateFree_joinComma {ts : List Str} (h : ∀ t ∈ ts, SurrogateFree t) :
    SurrogateFree (joinComma ts) := by
  intro c hc
  rcases mem_joinComma hc with rfl | ⟨t, ht, hc⟩
  · decide
  · exact h t ht c hc

theorem exists_emit_of_dumpable {v : Value} (h : Dumpable v) :
    ∃ t, emit v = .ok t ∧ SurrogateFree t := by
  induction v with
  | null => exact ⟨_, rfl, surrogateFree_of_all (by decide)⟩
  | bool b => cases b <;> exact ⟨_, rfl, surrogateFree_of_all (by decide)⟩
  | int i =>
    have hlen : ¬ maxIntDigits < (natText i.natAbs).length := Nat.not_lt.mpr h
    exact ⟨_, by rw [emit, if_neg hlen],
      surrogateFree_number (render_numberChars (intText_wellFormed i))⟩
  | float x =>
    cases x with
    | finite neg bits =>
      exact ⟨_, rfl, surrogateFree_number (render_numberChars (floatText_spec neg bits).1)⟩
    | _ => cases h
  | str s => exact ⟨_, rfl, surrogateFree_quote h⟩
  | bytes b => exact h.elim
  | list xs ih =>
    have hxs := (Value.all_list xs).mp h
    obtain ⟨ts, hts, hfree⟩ := exists_forall₂ fun x hx => ih x hx (hxs x hx)
    refine ⟨_, emit_list_eq_ok.mpr ⟨ts, hts, rfl⟩, ?_⟩
    rw [surrogateFree_cons_iff, surrogateFree_append_iff]
    exact ⟨by decide, surrogateFree_joinComma hfree, surrogateFree_of_all (by decide)⟩
  | dict kvs ih =>
    obtain ⟨hkeys, hkvs⟩ := (Value.all_dict kvs).mp h
    have hitems : ∀ p ∈ kvs, ∃ t, EmitsItem p t ∧ SurrogateFree t := by
      intro p hp
      obtain ⟨tv, htv, hfree⟩ := ih p hp (hkvs p hp)
      refine ⟨_, ⟨tv, htv, rfl⟩, ?_⟩
      rw [surrogateFree_append_iff, surrogateFree_cons_iff]
      exact ⟨surrogateFree_quote (hkeys p.1 (List.mem_map_of_mem hp)), by decide, hfree⟩
    obtain ⟨ts, hts, hfree⟩ := exists_forall₂ hitems
    refine ⟨_, emit_dict_eq_ok.mpr ⟨ts, hts, rfl⟩, ?_⟩
    rw [surrogateFree_cons_iff, surrogateFree_append_iff]
    exact ⟨by decide, surrogateFree_joinComma hfree, surrogateFree_of_all (by decide)⟩

theorem dumpable_sortKeys {v : Value} : Dumpable v.sortKeys ↔ Dumpable v :=
  Value.all_sortKeys fun hp hk k hmem => hk k (hp.mem_iff.mpr hmem)

theorem exists_dumpBytes_iff {v : Value} : (∃ b, dumpBytes v = .ok b) ↔ Dumpable v := by
  constructor
  · rintro ⟨b, hb⟩
    obtain ⟨t, ht, hfree, -⟩ := dumpBytes_eq_ok.mp hb
    exact dumpable_sortKeys.mp (dumpable_of_emit ht hfree)
  · intro h
    obtain ⟨t, ht, hfree⟩ := exists_emit_of_dumpable (dumpable_sortKeys.mpr h)
    exact ⟨_, dumpBytes_eq_ok.mpr ⟨t, ht, hfree, rfl⟩⟩

theorem textsSurrogateFree_of_dumpBytes {v : Value} {b : Bytes} (h : dumpBytes v = .ok b) :
    v.TextsSurrogateFree := (exists_dumpBytes_iff.mp ⟨b, h⟩).texts

/-- The text of a dict starts with two ASCII characters, so its encoding is detected as UTF-8. -/
theorem decodeJson_dumpBytes_dict {kvs : Obj} {t : Str} (h : emit (.dict kvs) = .ok t) :
    decodeJson (utf8Bytes t) = some t := by
  obtain ⟨ts, hts, rfl⟩ := emit_dict_eq_ok.mp h
  have hopen : utf8Char (cp '{') = [⟨123, by decide⟩] := by decide
  have hclose : utf8Char (cp '}') = [⟨125, by decide⟩] := by decide
  have hquote : utf8Char (cp '"') = [⟨34, by decide⟩] := by decide
  rw [← utf8Decode_utf8Bytes (cp '{' :: (joinComma ts ++ [cp '}']))]
  cases hts with
  | nil =>
    simp only [joinComma, List.nil_append, utf8Bytes_cons, utf8Bytes_nil, hopen, hclose,
      List.singleton_append, List.append_nil]
    exact decodeJson_ascii (by decide) (by decide)
  | cons hp _ =>
    obtain ⟨tv, -, rfl⟩ := hp
    simp only [joinComma, quote, List.cons_append, utf8Bytes_cons, hopen, hquote]
    exact decodeJson_ascii (by decide) (by decide)

end Py
