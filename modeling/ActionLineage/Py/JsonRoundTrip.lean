import ActionLineage.Py.JsonLoads

/-!
# `json.loads` reads back what `json.dumps` writes

The round trip is an induction over the value, with the machine's stack arbitrary: reading the text
of `v` from a state that expects a value completes `v` on the same stack (`run_emit`). A number is
complete only once the next character shows that its token has ended, so the statement is about the
state after `settle`.

`loads_dumpBytes` is the round trip of a whole document: keys come back sorted.
-/

namespace Py

namespace Scan

variable {h : Hooks}

/-- Hooks that let every dict with distinct keys through unchanged. -/
def KeepsObjects (h : Hooks) : Prop := ∀ kvs : Obj, kvs.keys.Nodup → h.objectPairs kvs = .ok kvs

theorem keepsObjects_plain (n : Nat) : KeepsObjects (.plain n) :=
  fun _ hn => congrArg Except.ok (dictOf_eq_self hn)

@[simp] theorem run_nil (s : Scan) : run h s [] = .ok s := rfl

theorem run_cons (s : Scan) (c : CodePoint) (t : Str) :
    run h s (c :: t) = (step h s c).bind fun s => run h s t := by
  simp only [run, List.foldlM_cons]
  rfl

theorem run_append (s : Scan) (a b : Str) :
    run h s (a ++ b) = (run h s a).bind fun s => run h s b := by
  simp only [run, List.foldlM_append]
  rfl

theorem run_append_of_ok {s s' : Scan} {a : Str} (ha : run h s a = .ok s') (b : Str) :
    run h s (a ++ b) = run h s' b := by
  rw [run_append, ha]
  rfl

theorem run_cons_of_ok {s q : Scan} {c : CodePoint} (hc : step h s c = .ok q) (t : Str) :
    run h s (c :: t) = run h q t := by
  rw [run_cons, hc]
  rfl

/-- A completed value leaves no token pending. -/
@[simp] theorem settle_complete (v : Value) (st : List Frame) :
    settle h (complete v st) = .ok (complete v st) := by
  match st with
  | [] => rfl
  | .item _ :: _ => rfl
  | .member _ _ :: _ => rfl

/-- A character that cannot extend a token acts on the settled state. -/
theorem step_of_settle {s s' : Scan} (hs : settle h s = .ok s') {c : CodePoint}
    (hc : isTokenChar c = false) : step h s c = advance h s' c := by
  obtain ⟨st, mode⟩ := s
  cases mode with
  | token acc =>
    simp only [step, hc, Bool.false_eq_true, if_false, hs]
    rfl
  | _ =>
    cases hs
    rfl

/-! ## Strings -/

theorem hexVal_hexDigit (n : Nat) : TextScan.hexVal (hexDigit n) = some (n % 16) := by
  unfold hexDigit
  split
  · simp only [TextScan.hexVal]
    rw [if_pos (by omega)]
    congr 1
    omega
  · simp only [TextScan.hexVal]
    rw [if_neg (by omega), if_pos (by omega)]
    congr 1
    omega

/-- Reading one escaped character inside a string literal. -/
theorem run_escapeChar (st : List Frame) (key : Option Obj) (acc : Str) (c : CodePoint) :
    run h ⟨st, .text key ⟨acc, none, .none⟩⟩ (escapeChar c)
      = .ok ⟨st, .text key ⟨c :: acc, none, .none⟩⟩ := by
  unfold escapeChar
  split_ifs with hq hb h10 h13 h9 h12 h8 h32
  · subst hq; rfl
  · subst hb; rfl
  · obtain rfl : c = ⟨10, by decide⟩ := Fin.ext h10
    rfl
  · obtain rfl : c = ⟨13, by decide⟩ := Fin.ext h13
    rfl
  · obtain rfl : c = ⟨9, by decide⟩ := Fin.ext h9
    rfl
  · obtain rfl : c = ⟨12, by decide⟩ := Fin.ext h12
    rfl
  · obtain rfl : c = ⟨8, by decide⟩ := Fin.ext h8
    rfl
  · -- the prefix `\u00` leaves two hex digits to read
    have hstarts : run h ⟨st, .text key ⟨acc, none, .none⟩⟩ (lit "\\u00")
        = .ok ⟨st, .text key ⟨acc, none, .hex 0 1⟩⟩ := rfl
    rw [run_append_of_ok hstarts]
    have hunit : (c.val / 16 % 16 * 16 + c.val % 16) % 0x10000 = c.val := by omega
    have hhigh : isHighSurrogate c = false := by
      simp only [isHighSurrogate, Bool.and_eq_false_iff, decide_eq_false_iff_not]
      omega
    simp only [run_cons, step, advance, TextScan.step, hexVal_hexDigit, Except.map, Except.bind,
      TextScan.pushUnit, run_nil, zero_mul, zero_add, hunit, Fin.eta, hhigh, Bool.false_eq_true,
      if_false]
  · simp only [run_cons, step, advance, TextScan.step, hq, hb, h32, if_false, Except.map,
      Except.bind, TextScan.flush, run_nil]

theorem run_escaped (st : List Frame) (key : Option Obj) (acc s : Str) :
    run h ⟨st, .text key ⟨acc, none, .none⟩⟩ (s.flatMap escapeChar)
      = .ok ⟨st, .text key ⟨s.reverse ++ acc, none, .none⟩⟩ := by
  induction s generalizing acc with
  | nil => rfl
  | cons c s ih =>
    rw [List.flatMap_cons, run_append_of_ok (run_escapeChar st key acc c), ih]
    simp

/-- The state after a whole string literal. -/
def afterText (st : List Frame) (key : Option Obj) (s : Str) : Scan :=
  match key with
  | none => complete (.str s) st
  | some kvs => ⟨st, .colon kvs s⟩

theorem run_quote_tail (st : List Frame) (key : Option Obj) (s : Str) :
    run h ⟨st, .text key .start⟩ (s.flatMap escapeChar ++ [cp '"']) = .ok (afterText st key s) := by
  rw [TextScan.start, run_append_of_ok (run_escaped st key [] s), run_cons, List.append_nil]
  unfold afterText
  cases key <;>
    simp only [step, advance, TextScan.step, if_true, Except.map, Except.bind, TextScan.flush,
      List.reverse_reverse, run_nil]

theorem run_quote_value (st : List Frame) (s : Str) :
    run h ⟨st, .value⟩ (quote s) = .ok (complete (.str s) st) :=
  (run_cons_of_ok (q := ⟨st, .text none .start⟩) rfl _).trans (run_quote_tail st none s)

theorem run_quote_key (st : List Frame) (first : Bool) (kvs : Obj) (s : Str) :
    run h ⟨st, .key first kvs⟩ (quote s) = .ok ⟨st, .colon kvs s⟩ :=
  (run_cons_of_ok (q := ⟨st, .text (some kvs) .start⟩) rfl _).trans
    (run_quote_tail st (some kvs) s)

/-! ## Tokens -/

theorem isTokenChar_of_isNumberChar {c : CodePoint} (hc : isNumberChar c = true) :
    isTokenChar c = true := by
  simp [isTokenChar, hc]

theorem run_token (st : List Frame) (acc t : Str) (ht : ∀ c ∈ t, isTokenChar c = true) :
    run h ⟨st, .token acc⟩ t = .ok ⟨st, .token (t.reverse ++ acc)⟩ := by
  induction t generalizing acc with
  | nil => rfl
  | cons c t ih =>
    have hc := ht c (by simp)
    rw [run_cons_of_ok (q := ⟨st, .token (c :: acc)⟩) (by simp [step, hc]),
      ih _ fun d hd => ht d (by simp [hd])]
    simp

/-- A token character starts a token, whatever value is expected. -/
theorem startValue_token (st : List Frame) {c : CodePoint} (hc : isTokenChar c = true) :
    startValue h st c = .ok ⟨st, .token [c]⟩ := by
  have hne : c ≠ cp '"' ∧ c ≠ cp '[' ∧ c ≠ cp '{' := by
    refine ⟨?_, ?_, ?_⟩ <;> rintro rfl <;> exact absurd hc (by decide)
  simp [startValue, hne, hc]

theorem isSpace_of_isTokenChar {c : CodePoint} (hc : isTokenChar c = true) : isSpace c = false := by
  have hne : c ≠ cp ' ' ∧ c ≠ cp '\t' ∧ c ≠ cp '\n' ∧ c ≠ cp '\r' := by
    refine ⟨?_, ?_, ?_, ?_⟩ <;> rintro rfl <;> exact absurd hc (by decide)
  simp [isSpace, hne]

theorem run_token_value (st : List Frame) {t : Str} {v : Value} (hne : t ≠ [])
    (ht : ∀ c ∈ t, isTokenChar c = true) (hv : tokenValue h t = .ok v) :
    ∃ s, run h ⟨st, .value⟩ t = .ok s ∧ settle h s = .ok (complete v st) := by
  obtain ⟨c, r, rfl⟩ := List.exists_cons_of_ne_nil hne
  have hc := ht c (by simp)
  refine ⟨⟨st, .token (r.reverse ++ [c])⟩, ?_, ?_⟩
  · rw [run_cons_of_ok (q := ⟨st, .token [c]⟩)]
    · exact run_token st [c] r fun d hd => ht d (by simp [hd])
    · simp only [step, advance, isSpace_of_isTokenChar hc, Bool.false_eq_true, if_false]
      exact startValue_token st hc
  · simp only [settle, List.reverse_append, List.reverse_reverse, List.reverse_singleton,
      List.singleton_append, hv, Except.map]

/-- A number token is none of the literals. -/
theorem tokenValue_number {t : NumText} (hw : t.WellFormed) :
    tokenValue h t.render = if t.isInt then
        if maxIntDigits < t.ip.length then .error .intDigits else .ok (.int t.toInt)
      else .ok (.float t.toFloat) := by
  -- every literal contains a letter that no number contains
  have hlit : ∀ l : Str, l.all isNumberChar = false → t.render ≠ l := by
    rintro l hl rfl
    have hall : t.render.all isNumberChar = true := List.all_eq_true.mpr (render_numberChars hw)
    rw [hall] at hl
    cases hl
  simp only [tokenValue, hlit (lit "null") (by decide), hlit (lit "true") (by decide),
    hlit (lit "false") (by decide), hlit (lit "NaN") (by decide),
    hlit (lit "Infinity") (by decide), hlit (lit "-Infinity") (by decide),
    or_self, if_false, parseNumber_render hw]

/-! ## Values -/

/-- Characters an emitted value starts with. -/
theorem emit_head {v : Value} {t : Str} (he : emit v = .ok t) :
    ∃ c r, t = c :: r ∧ (c = cp '"' ∨ c = cp '[' ∨ c = cp '{' ∨ isTokenChar c = true) := by
  have hnum : ∀ n : NumText, n.WellFormed → ∃ c r, n.render = c :: r ∧
      (c = cp '"' ∨ c = cp '[' ∨ c = cp '{' ∨ isTokenChar c = true) := by
    intro n hn
    obtain ⟨c, r, hcr⟩ := List.exists_cons_of_ne_nil (render_ne_nil hn)
    refine ⟨c, r, hcr, .inr (.inr (.inr ?_))⟩
    exact isTokenChar_of_isNumberChar (render_numberChars hn c (by simp [hcr]))
  cases v with
  | null =>
    obtain rfl : lit "null" = t := by simpa [emit] using he
    exact ⟨_, _, rfl, by decide⟩
  | bool b =>
    obtain rfl : (if b then lit "true" else lit "false") = t := by simpa [emit] using he
    cases b <;> exact ⟨_, _, rfl, by decide⟩
  | int i =>
    simp only [emit] at he
    split at he
    · cases he
    · obtain rfl := Except.ok.inj he
      exact hnum _ (intText_wellFormed i)
  | float x =>
    cases x with
    | finite neg bits =>
      obtain rfl : (floatText neg bits).render = t := by simpa [emit] using he
      exact hnum _ (floatText_spec neg bits).1
    | inf neg => simp [emit] at he
    | nan => simp [emit] at he
  | str s =>
    obtain rfl : quote s = t := by simpa [emit] using he
    exact ⟨_, _, rfl, .inl rfl⟩
  | bytes b => simp [emit] at he
  | list xs =>
    obtain ⟨ts, -, rfl⟩ := emit_list_eq_ok.mp he
    exact ⟨_, _, rfl, .inr (.inl rfl)⟩
  | dict kvs =>
    obtain ⟨ts, -, rfl⟩ := emit_dict_eq_ok.mp he
    exact ⟨_, _, rfl, .inr (.inr (.inl rfl))⟩

/-- The first item of a list is read as any other value. -/
theorem run_firstItem (st : List Frame) {v : Value} {t : Str} (he : emit v = .ok t) :
    run h ⟨st, .firstItem⟩ t = run h ⟨.item [] :: st, .value⟩ t := by
  obtain ⟨c, r, rfl, hc⟩ := emit_head he
  have hspace : isSpace c = false := by
    rcases hc with rfl | rfl | rfl | hc
    · decide
    · decide
    · decide
    · exact isSpace_of_isTokenChar hc
  have hclose : c ≠ cp ']' := by
    rintro rfl
    revert hc
    decide
  have hstep : step h ⟨st, .firstItem⟩ c = step h ⟨.item [] :: st, .value⟩ c := by
    simp only [step, advance, hspace, hclose, Bool.false_eq_true, if_false]
  rw [run_cons, run_cons, hstep]

/-- What `run_emit` says of one value. -/
def Reads (h : Hooks) (v : Value) : Prop :=
  ∀ (t : Str) (st : List Frame), emit v = .ok t → st.length + v.height ≤ h.recursionLimit →
    ∃ s, run h ⟨st, .value⟩ t = .ok s ∧ settle h s = .ok (complete v st)

theorem reads_int (i : Int) : Reads h (.int i) := by
  intro t st he _
  simp only [emit] at he
  split at he
  · cases he
  · rename_i hlen
    obtain rfl := Except.ok.inj he
    have hw := intText_wellFormed i
    refine run_token_value st (render_ne_nil hw)
      (fun c hc => isTokenChar_of_isNumberChar (render_numberChars hw c hc)) ?_
    have hint : (intText i).isInt = true := rfl
    have hip : ¬ maxIntDigits < (intText i).ip.length := hlen
    rw [tokenValue_number hw, if_pos hint, if_neg hip, intText_toInt]

theorem reads_float (x : Binary64) : Reads h (.float x) := by
  intro t st he _
  cases x with
  | finite neg bits =>
    obtain rfl : (floatText neg bits).render = t := by simpa [emit] using he
    obtain ⟨hw, hint, hfloat⟩ := floatText_spec neg bits
    refine run_token_value st (render_ne_nil hw)
      (fun c hc => isTokenChar_of_isNumberChar (render_numberChars hw c hc)) ?_
    rw [tokenValue_number hw, hint, hfloat]
    rfl
  | inf neg => simp [emit] at he
  | nan => simp [emit] at he

/-- The rest of a list, read from a state in which `xs` have been read. -/
theorem run_items {ys : List Value} {ts : List Str} (st : List Frame) {s : Scan} {xs : List Value}
    (hs : settle h s = .ok ⟨st, .afterItem xs⟩)
    (hts : List.Forall₂ (fun y t => emit y = .ok t) ys ts)
    (hread : ∀ y ∈ ys, Reads h y)
    (hlim : ∀ y ∈ ys, st.length + 1 + y.height ≤ h.recursionLimit) :
    run h s ((ts.flatMap fun t => cp ',' :: t) ++ [cp ']'])
      = .ok (complete (.list (xs ++ ys)) st) := by
  induction hts generalizing s xs with
  | nil =>
    rw [List.flatMap_nil, List.nil_append, run_cons, step_of_settle hs (by decide),
      List.append_nil]
    rfl
  | @cons y t ys ts hy _ ih =>
    have hcomma : step h s (cp ',') = .ok ⟨.item xs :: st, .value⟩ :=
      (step_of_settle hs (by decide)).trans rfl
    obtain ⟨s', hrun, hsettle⟩ :=
      hread y (by simp) t (.item xs :: st) hy (by simpa using hlim y (by simp))
    rw [List.flatMap_cons, List.cons_append, List.cons_append, run_cons_of_ok hcomma,
      List.append_assoc, run_append_of_ok hrun,
      @ih _ (xs ++ [y]) hsettle (fun z hz => hread z (by simp [hz]))
        (fun z hz => hlim z (by simp [hz])), List.append_assoc]
    rfl

/-- One item of a dict, read where a key may start. -/
theorem run_member {p : Str × Value} {t : Str} (st : List Frame) (first : Bool) (kvs : Obj)
    (hp : EmitsItem p t) (hread : Reads h p.2)
    (hlim : st.length + 1 + p.2.height ≤ h.recursionLimit) :
    ∃ s, run h ⟨st, .key first kvs⟩ t = .ok s ∧
      settle h s = .ok ⟨st, .afterMember (kvs ++ [p])⟩ := by
  obtain ⟨k, v⟩ := p
  obtain ⟨tv, hv, rfl⟩ := hp
  have hcolon : step h ⟨st, .colon kvs k⟩ (cp ':') = .ok ⟨.member kvs k :: st, .value⟩ := rfl
  obtain ⟨s, hrun, hsettle⟩ := hread tv (.member kvs k :: st) hv (by simpa using hlim)
  refine ⟨s, ?_, hsettle⟩
  rw [run_append_of_ok (run_quote_key st first kvs k), run_cons_of_ok hcolon, hrun]

theorem run_members {ps : Obj} {ts : List Str} (st : List Frame) {s : Scan} {kvs : Obj}
    (hs : settle h s = .ok ⟨st, .afterMember kvs⟩) (hts : List.Forall₂ EmitsItem ps ts)
    (hread : ∀ p ∈ ps, Reads h p.2)
    (hlim : ∀ p ∈ ps, st.length + 1 + p.2.height ≤ h.recursionLimit) :
    run h s ((ts.flatMap fun t => cp ',' :: t) ++ [cp '}'])
      = closeObject h st (kvs ++ ps) := by
  induction hts generalizing s kvs with
  | nil =>
    rw [List.flatMap_nil, List.nil_append, run_cons, step_of_settle hs (by decide),
      List.append_nil]
    change (closeObject h st kvs).bind _ = _
    cases closeObject h st kvs <;> rfl
  | @cons p t ps ts hp _ ih =>
    have hcomma : step h s (cp ',') = .ok ⟨st, .key false kvs⟩ :=
      (step_of_settle hs (by decide)).trans rfl
    obtain ⟨s', hrun, hsettle⟩ :=
      run_member st false kvs hp (hread p (by simp)) (hlim p (by simp))
    rw [List.flatMap_cons, List.cons_append, List.cons_append, run_cons_of_ok hcomma,
      List.append_assoc, run_append_of_ok hrun,
      ih hsettle (fun z hz => hread z (by simp [hz])) (fun z hz => hlim z (by simp [hz])),
      List.append_assoc]
    rfl

theorem reads_list {xs : List Value} (ih : ∀ x ∈ xs, Reads h x) : Reads h (.list xs) := by
  intro t st he hlim
  obtain ⟨ts, hts, rfl⟩ := emit_list_eq_ok.mp he
  have hheight : ∀ x ∈ xs, st.length + 1 + x.height ≤ h.recursionLimit := by
    intro x hx
    have := Value.heightList_le.mp le_rfl x hx
    simp only [Value.height] at hlim
    omega
  have hopen : step h ⟨st, .value⟩ (cp '[') = .ok ⟨st, .firstItem⟩ := by
    have hlt : st.length < h.recursionLimit := by
      simp only [Value.height] at hlim
      omega
    simp only [step, advance]
    change enter h st .firstItem = _
    rw [enter, if_pos hlt]
  refine ⟨complete (.list xs) st, ?_, settle_complete _ _⟩
  rw [run_cons_of_ok hopen]
  cases hts with
  | nil => rfl
  | @cons x t xs ts hx hts =>
    obtain ⟨s, hrun, hsettle⟩ :=
      ih x (by simp) t (.item [] :: st) hx (by simpa using hheight x (by simp))
    rw [joinComma, List.append_assoc, run_append, run_firstItem st hx, hrun]
    exact run_items st hsettle hts (fun z hz => ih z (by simp [hz]))
      (fun z hz => hheight z (by simp [hz]))

theorem reads_dict (hobj : KeepsObjects h) {kvs : Obj} (hn : kvs.keys.Nodup)
    (ih : ∀ p ∈ kvs, Reads h p.2) : Reads h (.dict kvs) := by
  intro t st he hlim
  obtain ⟨ts, hts, rfl⟩ := emit_dict_eq_ok.mp he
  have hheight : ∀ p ∈ kvs, st.length + 1 + p.2.height ≤ h.recursionLimit := by
    intro p hp
    have := Value.heightObj_le.mp le_rfl p hp
    simp only [Value.height] at hlim
    omega
  have hopen : step h ⟨st, .value⟩ (cp '{') = .ok ⟨st, .key true []⟩ := by
    have hlt : st.length < h.recursionLimit := by
      simp only [Value.height] at hlim
      omega
    simp only [step, advance]
    change enter h st (.key true []) = _
    rw [enter, if_pos hlt]
  have hclose : closeObject h st kvs = .ok (complete (.dict kvs) st) := by
    simp only [closeObject, hobj kvs hn, Except.map]
  refine ⟨complete (.dict kvs) st, ?_, settle_complete _ _⟩
  rw [run_cons_of_ok hopen]
  cases hts with
  | nil =>
    rw [← hclose]
    change (closeObject h st []).bind _ = _
    cases closeObject h st [] <;> rfl
  | @cons p t ps ts hp hts =>
    obtain ⟨s, hrun, hsettle⟩ :=
      run_member st true [] hp (ih p (by simp)) (hheight p (by simp))
    rw [joinComma, List.append_assoc, run_append_of_ok hrun, ← hclose]
    exact run_members st hsettle hts (fun z hz => ih z (by simp [hz]))
      (fun z hz => hheight z (by simp [hz]))

/-- Reading the text of a value completes that value, on any stack. -/
theorem run_emit (hobj : KeepsObjects h) {v : Value} (hv : v.WellFormed) : Reads h v := by
  induction v with
  | null =>
    intro t st he _
    obtain rfl : lit "null" = t := by simpa [emit] using he
    exact run_token_value st (by decide) (List.all_eq_true.mp (by decide)) rfl
  | bool b =>
    intro t st he _
    obtain rfl : (if b then lit "true" else lit "false") = t := by simpa [emit] using he
    cases b
    · exact run_token_value st (by decide) (List.all_eq_true.mp (by decide)) rfl
    · exact run_token_value st (by decide) (List.all_eq_true.mp (by decide)) rfl
  | int i => exact reads_int i
  | float x => exact reads_float x
  | str s =>
    intro t st he _
    obtain rfl : quote s = t := by simpa [emit] using he
    exact ⟨_, run_quote_value st s, settle_complete _ _⟩
  | bytes b =>
    intro t st he _
    simp [emit] at he
  | list xs ih =>
    have hxs := (Value.all_list xs).mp hv
    exact reads_list fun x hx => ih x hx (hxs x hx)
  | dict kvs ih =>
    obtain ⟨hn, hkvs⟩ := (Value.all_dict kvs).mp hv
    exact reads_dict hobj hn fun p hp => ih p hp (hkvs p hp)

end Scan

/-- `loads(dumps(v, sort_keys=True))` is `v` with its keys in order. -/
theorem loadsText_emit {h : Hooks} (hobj : Scan.KeepsObjects h) {v : Value} {t : Str}
    (hv : v.WellFormed) (hlim : v.height ≤ h.recursionLimit) (he : emit v = .ok t) :
    loadsText h t = .ok v := by
  obtain ⟨s, hrun, hsettle⟩ := Scan.run_emit hobj hv t [] he (by simpa using hlim)
  simp only [loadsText, Scan.start, hrun, bind, Except.bind, Scan.finish, hsettle]
  rfl

theorem loads_dumpBytes {h : Hooks} (hobj : Scan.KeepsObjects h) {kvs : Obj} {b : Bytes}
    (hv : (Value.dict kvs).WellFormed) (hlim : (Value.dict kvs).height ≤ h.recursionLimit)
    (hb : dumpBytes (.dict kvs) = .ok b) : loads h b = .ok (Value.dict kvs).sortKeys := by
  obtain ⟨t, ht, -, rfl⟩ := dumpBytes_eq_ok.mp hb
  have hsorted := Value.sortKeys_dict kvs
  have hdecode : decodeJson (utf8Bytes t) = some t := by
    rw [hsorted] at ht
    exact decodeJson_dumpBytes_dict ht
  simp only [loads, hdecode]
  exact loadsText_emit hobj (Value.wellFormed_sortKeys.mpr hv) ((Value.height_sortKeys _).trans hlim) ht

end Py
