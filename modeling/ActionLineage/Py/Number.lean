import ActionLineage.Py.Binary64

/-!
# Number tokens — the JSON number grammar, `str(int)` and `repr(float)`

A number token is kept in parts (`NumText`): sign, integer digits, fraction digits, exponent.
`render` writes the parts, `parseNumber` reads the JSON grammar back into parts, and
`parseNumber_render` says they are inverse on well-formed tokens. What remains is that the parts
`intText` and `floatText` choose denote the number they came from (`intText_toInt`,
`floatText_toFloat`).
-/

namespace Py

structure NumText where
  neg : Bool
  /-- Integer digits. -/
  ip : Str
  /-- Fraction digits; empty when there is no fraction. -/
  frac : Str
  /-- Exponent sign and digits. -/
  exp : Option (Bool × Str)
deriving DecidableEq, Repr

namespace NumText

def expText : Option (Bool × Str) → Str
  | none => []
  | some (neg, ds) => cp 'e' :: (if neg then cp '-' else cp '+') :: ds

def fracText (frac : Str) : Str := if frac = [] then [] else cp '.' :: frac

def render (t : NumText) : Str :=
  (if t.neg then [cp '-'] else []) ++ (t.ip ++ (fracText t.frac ++ expText t.exp))

/-- No fraction and no exponent: `json` reads an `int`. -/
def isInt (t : NumText) : Bool := t.frac == [] && t.exp == none

def toInt (t : NumText) : Int := if t.neg then -(readNat t.ip : Int) else readNat t.ip

def expValue : Option (Bool × Str) → Int
  | none => 0
  | some (neg, ds) => if neg then -(readNat ds : Int) else readNat ds

/-- `float(token)`. -/
def toFloat (t : NumText) : Binary64 :=
  .ofDecimal t.neg (readNat (t.ip ++ t.frac)) (expValue t.exp - t.frac.length)

/-- The tokens of the JSON grammar. -/
structure WellFormed (t : NumText) : Prop where
  ip_ne_nil : t.ip ≠ []
  ip_digits : ∀ c ∈ t.ip, isDigit c = true
  no_leading_zero : t.ip.head? ≠ some (cp '0') ∨ t.ip.length = 1
  frac_digits : ∀ c ∈ t.frac, isDigit c = true
  exp_digits : ∀ neg ds, t.exp = some (neg, ds) → ds ≠ [] ∧ ∀ c ∈ ds, isDigit c = true

end NumText

/-! ## Reading a token -/

def parseExp : Str → Option (Option (Bool × Str))
  | [] => some none
  | c :: s =>
    if c = cp 'e' ∨ c = cp 'E' then
      let (neg, ds) := match s with
        | c :: r => if c = cp '-' then (true, r) else if c = cp '+' then (false, r) else (false, s)
        | [] => (false, [])
      if ds ≠ [] ∧ ds.all isDigit = true then some (some (neg, ds)) else none
    else none

def parseFrac (s : Str) : Option (Str × Option (Bool × Str)) :=
  match s with
  | [] => some ([], none)
  | c :: r =>
    if c = cp '.' then
      if r.takeWhile isDigit = [] then none
      else (parseExp (r.dropWhile isDigit)).map (r.takeWhile isDigit, ·)
    else (parseExp s).map ([], ·)

/-- The JSON number grammar `-?(0|[1-9][0-9]*)(\.[0-9]+)?([eE][-+]?[0-9]+)?`. -/
def parseNumber (s : Str) : Option NumText :=
  let (neg, r) := match s with
    | c :: r => if c = cp '-' then (true, r) else (false, s)
    | [] => (false, [])
  let ip := r.takeWhile isDigit
  if ip = [] ∨ (ip.head? = some (cp '0') ∧ 1 < ip.length) then none
  else (parseFrac (r.dropWhile isDigit)).map fun fe => ⟨neg, ip, fe.1, fe.2⟩

/-- A run of digits stops where a non-digit, or the end, comes next. -/
theorem span_digits {ds rest : Str} (hd : ∀ c ∈ ds, isDigit c = true)
    (hr : ∀ c, rest.head? = some c → isDigit c = false) :
    (ds ++ rest).takeWhile isDigit = ds ∧ (ds ++ rest).dropWhile isDigit = rest := by
  induction ds with
  | nil =>
    cases rest with
    | nil => simp
    | cons c rest => simp [hr c rfl]
  | cons c ds ih =>
    have hc := hd c (by simp)
    have ih := ih (fun x hx => hd x (by simp [hx]))
    simp [hc, ih]

theorem parseExp_expText {e : Option (Bool × Str)}
    (h : ∀ neg ds, e = some (neg, ds) → ds ≠ [] ∧ ∀ c ∈ ds, isDigit c = true) :
    parseExp (NumText.expText e) = some e := by
  cases e with
  | none => rfl
  | some p =>
    obtain ⟨neg, ds⟩ := p
    obtain ⟨hne, hds⟩ := h neg ds rfl
    have hplus : cp '+' ≠ cp '-' := by decide
    cases neg <;> simp [NumText.expText, parseExp, hne, hplus] <;> exact hds

theorem expText_head (e : Option (Bool × Str)) :
    ∀ c, (NumText.expText e).head? = some c → isDigit c = false ∧ c ≠ cp '.' := by
  intro c hc
  cases e with
  | none => simp [NumText.expText] at hc
  | some p =>
    simp only [NumText.expText, List.head?_cons, Option.some.injEq] at hc
    subst hc
    decide

theorem fracText_head {frac rest : Str}
    (hr : ∀ c, rest.head? = some c → isDigit c = false) :
    ∀ c, (NumText.fracText frac ++ rest).head? = some c → isDigit c = false := by
  intro c hc
  by_cases hf : frac = []
  · simp only [NumText.fracText, hf, if_true, List.nil_append] at hc
    exact hr c hc
  · simp only [NumText.fracText, hf, if_false, List.cons_append, List.head?_cons,
      Option.some.injEq] at hc
    subst hc
    decide

theorem parseFrac_fracText {frac : Str} {e : Option (Bool × Str)}
    (hfrac : ∀ c ∈ frac, isDigit c = true)
    (he : ∀ neg ds, e = some (neg, ds) → ds ≠ [] ∧ ∀ c ∈ ds, isDigit c = true) :
    parseFrac (NumText.fracText frac ++ NumText.expText e) = some (frac, e) := by
  have hparse := parseExp_expText he
  have hhead := expText_head e
  generalize NumText.expText e = expText at hparse hhead
  by_cases hf : frac = []
  · subst hf
    cases expText with
    | nil =>
      simp only [parseExp, Option.some.injEq] at hparse
      simp [NumText.fracText, parseFrac, ← hparse]
    | cons c r =>
      have hdot := (hhead c rfl).2
      simp [NumText.fracText, parseFrac, hdot, hparse]
  · obtain ⟨htake, hdrop⟩ := span_digits hfrac (fun c hc => (hhead c hc).1)
    simp [NumText.fracText, parseFrac, hf, htake, hdrop, hparse]

theorem parseNumber_render {t : NumText} (h : t.WellFormed) : parseNumber t.render = some t := by
  obtain ⟨neg, ip, frac, exp⟩ := t
  obtain ⟨hip, hipd, hzero, hfrac, hexp⟩ := h
  simp only at hip hipd hzero hfrac hexp
  have hparseFrac := parseFrac_fracText hfrac hexp
  obtain ⟨htake, hdrop⟩ :=
    span_digits hipd (@fracText_head frac _ (fun c hc => (expText_head exp c hc).1))
  have hguard : ¬ (ip = [] ∨ (ip.head? = some (cp '0') ∧ 1 < ip.length)) := by
    rintro (h | ⟨h, hlt⟩)
    · exact hip h
    · rcases hzero with hz | hz
      · exact hz h
      · omega
  cases neg with
  | true =>
    simp only [parseNumber, NumText.render, if_true, List.cons_append, List.nil_append, htake,
      hdrop, hguard, hparseFrac, if_false, Option.map_some]
  | false =>
    -- the first character is a digit, not the sign
    obtain ⟨c, r, hcr⟩ := List.exists_cons_of_ne_nil hip
    have hc : c ≠ cp '-' := by
      have := hipd c (by simp [hcr])
      rintro rfl
      exact absurd this (by decide)
    subst hcr
    simp only [NumText.render, Bool.false_eq_true, if_false, List.nil_append, List.cons_append,
      parseNumber, hc]
    simp only [List.cons_append] at htake hdrop
    rw [htake, hdrop, if_neg hguard, hparseFrac]
    rfl

/-! ## `str(int)` -/

def intText (i : Int) : NumText := ⟨decide (i < 0), natText i.natAbs, [], none⟩

theorem natText_no_leading_zero (n : Nat) :
    (natText n).head? ≠ some (cp '0') ∨ (natText n).length = 1 := by
  by_cases h : n = 0
  · right
    simp [natText, h]
  · left
    obtain ⟨c, s, hcs, -, hc⟩ := natText_head_ne_zero h
    rw [hcs, List.head?_cons]
    intro he
    exact hc (Option.some.inj he)

theorem intText_wellFormed (i : Int) : (intText i).WellFormed where
  ip_ne_nil := natText_ne_nil _
  ip_digits := natText_digits _
  no_leading_zero := natText_no_leading_zero _
  frac_digits := by simp [intText]
  exp_digits := by simp [intText]

theorem intText_toInt (i : Int) : (intText i).toInt = i := by
  simp only [intText, NumText.toInt, readNat_natText, decide_eq_true_eq]
  split <;> omega

/-! ## `repr(float)` -/

def zeros (n : Nat) : Str := List.replicate n (cp '0')

theorem zeros_digits {n : Nat} : ∀ c ∈ zeros n, isDigit c = true := by
  intro c hc
  rw [List.eq_of_mem_replicate hc]
  decide

theorem readNat_zeros (n : Nat) : readNat (zeros n) = 0 := by
  induction n with
  | zero => rfl
  | succ n ih =>
    have hz : zeros (n + 1) = cp '0' :: zeros n := rfl
    rw [hz, readNat_cons, ih]
    simp [digitVal, cp]

/-- At least two digits, as `repr` writes exponents. -/
def pad2 (n : Nat) : Str := if n < 10 then cp '0' :: natText n else natText n

theorem pad2_digits (n : Nat) : pad2 n ≠ [] ∧ ∀ c ∈ pad2 n, isDigit c = true := by
  unfold pad2
  split
  · refine ⟨by simp, ?_⟩
    intro c hc
    rcases List.mem_cons.mp hc with rfl | hc
    · decide
    · exact natText_digits n c hc
  · exact ⟨natText_ne_nil n, natText_digits n⟩

theorem readNat_pad2 (n : Nat) : readNat (pad2 n) = n := by
  unfold pad2
  split
  · rw [readNat_cons, readNat_natText]
    simp [digitVal, cp]
  · exact readNat_natText n

/-- `repr`'s layout of the digits `ds` with the decimal point after `decpt` of them. -/
def formatRepr (neg : Bool) (ds : Str) (decpt : Int) : NumText :=
  if decpt ≤ -4 ∨ 16 < decpt then
    ⟨neg, ds.take 1, ds.drop 1, some (decide (decpt - 1 < 0), pad2 (decpt - 1).natAbs)⟩
  else if decpt ≤ 0 then ⟨neg, [cp '0'], zeros (-decpt).toNat ++ ds, none⟩
  else if (ds.length : Int) ≤ decpt then
    ⟨neg, ds ++ zeros (decpt - ds.length).toNat, [cp '0'], none⟩
  else ⟨neg, ds.take decpt.toNat, ds.drop decpt.toNat, none⟩

/-- Digits that start with a non-zero digit. -/
structure LeadingDigits (ds : Str) : Prop where
  digits : ∀ c ∈ ds, isDigit c = true
  head : ∃ c s, ds = c :: s ∧ c ≠ cp '0'

theorem LeadingDigits.take_head {ds : Str} (h : LeadingDigits ds) {n : Nat} (hn : 0 < n) :
    ds.take n ≠ [] ∧ (ds.take n).head? ≠ some (cp '0') := by
  obtain ⟨c, s, rfl, hc⟩ := h.head
  obtain ⟨n, rfl⟩ := Nat.exists_eq_succ_of_ne_zero (by omega : n ≠ 0)
  simp [hc]

theorem formatRepr_wellFormed (neg : Bool) {ds : Str} (decpt : Int) (h : LeadingDigits ds) :
    (formatRepr neg ds decpt).WellFormed := by
  have htake : ∀ n, ∀ c ∈ ds.take n, isDigit c = true :=
    fun n c hc => h.digits c (List.mem_of_mem_take hc)
  have hdrop : ∀ n, ∀ c ∈ ds.drop n, isDigit c = true :=
    fun n c hc => h.digits c (List.mem_of_mem_drop hc)
  obtain ⟨c, s, hcs, hc⟩ := h.head
  unfold formatRepr
  split
  · obtain ⟨hne, hhead⟩ := h.take_head (n := 1) (by omega)
    refine ⟨hne, htake 1, .inl hhead, hdrop 1, ?_⟩
    intro neg' ds' he
    simp only [Option.some.injEq, Prod.mk.injEq] at he
    rw [← he.2]
    exact pad2_digits _
  split
  · refine ⟨by simp, ?_, .inr rfl, ?_, by simp⟩
    · intro x hx
      rw [List.mem_singleton.mp hx]
      decide
    · intro x hx
      rcases List.mem_append.mp hx with hx | hx
      · exact zeros_digits x hx
      · exact h.digits x hx
  split
  · refine ⟨by simp [hcs], ?_, .inl (by simp [hcs, hc]), ?_, by simp⟩
    · intro x hx
      rcases List.mem_append.mp hx with hx | hx
      · exact h.digits x hx
      · exact zeros_digits x hx
    · intro x hx
      rw [List.mem_singleton.mp hx]
      decide
  · obtain ⟨hne, hhead⟩ := h.take_head (n := decpt.toNat) (by omega)
    exact ⟨hne, htake _, .inl hhead, hdrop _, by simp⟩

theorem formatRepr_not_int (neg : Bool) {ds : Str} (decpt : Int) (h : LeadingDigits ds) :
    (formatRepr neg ds decpt).isInt = false := by
  obtain ⟨c, s, hcs, -⟩ := h.head
  unfold formatRepr NumText.isInt
  split
  · simp
  split
  · simp [hcs]
  split
  · simp
  · have hdrop : ds.drop decpt.toNat ≠ [] := by
      rw [Ne, List.drop_eq_nil_iff]
      omega
    simp [hdrop]

/-- The layout does not change the number. -/
theorem formatRepr_toFloat (neg : Bool) {ds : Str} (decpt : Int) (h : LeadingDigits ds) :
    (formatRepr neg ds decpt).toFloat = .ofDecimal neg (readNat ds) (decpt - ds.length) := by
  obtain ⟨c, s, hcs, -⟩ := h.head
  have hlen : 1 ≤ ds.length := by simp [hcs]
  unfold formatRepr NumText.toFloat
  split
  · have hexp : NumText.expValue (some (decide (decpt - 1 < 0), pad2 (decpt - 1).natAbs))
        = decpt - 1 := by
      simp only [NumText.expValue, readNat_pad2, decide_eq_true_eq]
      split <;> omega
    simp only [List.take_append_drop, hexp, List.length_drop]
    congr 1
    omega
  split
  · have hread : readNat ([cp '0'] ++ (zeros (-decpt).toNat ++ ds)) = readNat ds := by
      rw [← List.append_assoc, readNat_append]
      have hz : [cp '0'] ++ zeros (-decpt).toNat = zeros ((-decpt).toNat + 1) := rfl
      rw [hz, readNat_zeros, zero_mul, zero_add]
    simp only [NumText.expValue, List.length_append, zeros, List.length_replicate]
    congr 1
    omega
  split
  · rename_i hle
    obtain ⟨k, hk⟩ : ∃ k : Nat, decpt - ds.length = k := ⟨(decpt - ds.length).toNat, by omega⟩
    have hread : readNat (ds ++ zeros (decpt - ds.length).toNat ++ [cp '0'])
        = readNat ds * 10 ^ (k + 1) := by
      have hz : zeros k ++ [cp '0'] = zeros (k + 1) := by
        rw [zeros, zeros, List.replicate_succ']
      rw [hk, Int.toNat_natCast, List.append_assoc, hz, readNat_append, readNat_zeros]
      simp [zeros]
    simp only [hread, NumText.expValue, List.length_singleton]
    apply Binary64.ofDecimal_congr
    have hshift := Binary64.sameDecimal_shift (readNat ds) (k + 1) (decpt - ds.length)
    rw [show decpt - ds.length - ((k + 1 : Nat) : Int) = 0 - ((1 : Nat) : Int) from by omega]
      at hshift
    exact hshift
  · simp only [List.take_append_drop, NumText.expValue, List.length_drop]
    congr 1
    omega

/-- Trailing zeros move into the exponent. -/
def stripZeros : Nat → Nat → Int → Nat × Int
  | 0, D, p => (D, p)
  | fuel + 1, D, p => if D % 10 = 0 ∧ D ≠ 0 then stripZeros fuel (D / 10) (p + 1) else (D, p)

theorem stripZeros_spec (fuel D : Nat) (p : Int) (neg : Bool) (hD : D ≠ 0) :
    (stripZeros fuel D p).1 ≠ 0 ∧
      Binary64.ofDecimal neg (stripZeros fuel D p).1 (stripZeros fuel D p).2
        = Binary64.ofDecimal neg D p := by
  induction fuel generalizing D p with
  | zero => exact ⟨hD, rfl⟩
  | succ fuel ih =>
    unfold stripZeros
    split
    · rename_i h
      obtain ⟨ih1, ih2⟩ := ih (D / 10) (p + 1) (by omega)
      refine ⟨ih1, ih2.trans ?_⟩
      have hshift := Binary64.sameDecimal_shift (D / 10) 1 (p + 1)
      rw [show D / 10 * 10 ^ 1 = D from by omega,
        show p + 1 - ((1 : Nat) : Int) = p from by omega] at hshift
      exact (Binary64.ofDecimal_congr neg hshift).symm
    · exact ⟨hD, rfl⟩

/-- The parts of `repr(x)` for a finite float. -/
def floatText (neg : Bool) (bits : Fin infBits) : NumText :=
  if bits.val = 0 then ⟨neg, [cp '0'], [cp '0'], none⟩
  else
    let c := Binary64.shortest bits
    let d := stripZeros (natText c.1).length c.1 c.2
    formatRepr neg (natText d.1) ((natText d.1).length + d.2)

theorem roundBits_zero {d : Nat} (hd : 0 < d) : Binary64.roundBits 0 d = 0 := by
  simp [Binary64.roundBits, Binary64.roundDiv, hd]

theorem ofDecimal_zero (neg : Bool) (p : Int) :
    Binary64.ofDecimal neg 0 p = .finite neg ⟨0, by decide⟩ := by
  have hz : Binary64.roundBits 0 (10 ^ (-p).toNat) = 0 :=
    roundBits_zero (Nat.pow_pos (by omega))
  have hlt : (0 : Nat) < infBits := by decide
  simp only [Binary64.ofDecimal, Binary64.ofRatio, zero_mul, hz, hlt, dite_true]

theorem shortest_ne_zero {bits : Fin infBits} (h : bits.val ≠ 0) :
    (Binary64.shortest bits).1 ≠ 0 := by
  intro hz
  have hread := Binary64.ofDecimal_shortest false bits
  rw [hz, ofDecimal_zero] at hread
  simp only [Binary64.finite.injEq, true_and] at hread
  exact h (congrArg Fin.val hread).symm

theorem natText_leadingDigits {n : Nat} (h : n ≠ 0) : LeadingDigits (natText n) where
  digits := natText_digits n
  head := by
    obtain ⟨c, s, hcs, -, hc⟩ := natText_head_ne_zero h
    exact ⟨c, s, hcs, hc⟩

theorem floatText_spec (neg : Bool) (bits : Fin infBits) :
    (floatText neg bits).WellFormed ∧ (floatText neg bits).isInt = false ∧
      (floatText neg bits).toFloat = .finite neg bits := by
  unfold floatText
  split
  · rename_i h
    refine ⟨⟨by simp, ?_, .inr rfl, ?_, by simp⟩, by simp [NumText.isInt], ?_⟩
    · intro c hc
      rw [List.mem_singleton.mp hc]
      decide
    · intro c hc
      rw [List.mem_singleton.mp hc]
      decide
    · have hread : readNat ([cp '0'] ++ [cp '0']) = 0 := by decide
      have hb : bits = ⟨0, by decide⟩ := Fin.ext h
      simp only [NumText.toFloat, hread, ofDecimal_zero, hb]
  · rename_i h
    have hne := shortest_ne_zero h
    obtain ⟨hd, hsame⟩ := stripZeros_spec (natText (Binary64.shortest bits).1).length
      (Binary64.shortest bits).1 (Binary64.shortest bits).2 neg hne
    have hlead := natText_leadingDigits hd
    refine ⟨formatRepr_wellFormed neg _ hlead, formatRepr_not_int neg _ hlead, ?_⟩
    rw [formatRepr_toFloat neg _ hlead, readNat_natText, add_sub_cancel_left, hsame]
    exact Binary64.ofDecimal_shortest neg bits

/-! ## Which characters tokens are made of -/

/-- The characters a number token can contain. -/
def isNumberChar (c : CodePoint) : Bool :=
  isDigit c || c == cp '-' || c == cp '+' || c == cp '.' || c == cp 'e' || c == cp 'E'

theorem isNumberChar_of_isDigit {c : CodePoint} (h : isDigit c = true) : isNumberChar c = true := by
  simp [isNumberChar, h]

theorem render_numberChars {t : NumText} (h : t.WellFormed) :
    ∀ c ∈ t.render, isNumberChar c = true := by
  intro c hc
  simp only [NumText.render, List.mem_append] at hc
  rcases hc with hc | hc | hc | hc
  · cases hn : t.neg <;> simp [hn] at hc
    subst hc
    decide
  · exact isNumberChar_of_isDigit (h.ip_digits c hc)
  · by_cases hf : t.frac = []
    · simp [NumText.fracText, hf] at hc
    · simp only [NumText.fracText, hf, if_false, List.mem_cons] at hc
      rcases hc with rfl | hc
      · decide
      · exact isNumberChar_of_isDigit (h.frac_digits c hc)
  · cases he : t.exp with
    | none => simp [NumText.expText, he] at hc
    | some p =>
      obtain ⟨neg, ds⟩ := p
      simp only [NumText.expText, he, List.mem_cons] at hc
      rcases hc with rfl | rfl | hc
      · decide
      · cases neg <;> decide
      · exact isNumberChar_of_isDigit ((h.exp_digits neg ds he).2 c hc)

theorem render_ne_nil {t : NumText} (h : t.WellFormed) : t.render ≠ [] := by
  obtain ⟨c, s, hcs⟩ := List.exists_cons_of_ne_nil h.ip_ne_nil
  simp [NumText.render, hcs]

end Py
