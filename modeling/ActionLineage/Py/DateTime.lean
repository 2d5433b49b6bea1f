import ActionLineage.Py.Str

/-!
# UTC datetimes — fields, offsets and canonical text

A `DateTime` is the fields of a Python `datetime`, valid by construction. Two datetimes with the
same tzinfo are compared field by field, so the order of instants is the lexicographic order of
`instant`.

* `ofLocal` is `astimezone(UTC)`: it shifts by an offset of less than a day and can leave the
  calendar, which Python reports as `OverflowError`.
* `isoZ` is the canonical text: the fraction is left out when it is zero and has six digits
  otherwise.
* `isoZ_lt` says what order the *text* has: the order of `textInstant`, where a whole second counts
  as the largest fraction of that second because `Z` sorts after `.`.
-/

namespace Py

def isLeap (y : Nat) : Bool := y % 4 = 0 ∧ (y % 100 ≠ 0 ∨ y % 400 = 0)

def daysInMonth (y m : Nat) : Nat :=
  if m = 2 then (if isLeap y then 29 else 28)
  else if m = 4 ∨ m = 6 ∨ m = 9 ∨ m = 11 then 30 else 31

structure DateTime where
  year : Nat
  month : Nat
  day : Nat
  hour : Nat
  minute : Nat
  second : Nat
  micro : Nat
  year_pos : 1 ≤ year
  year_le : year ≤ 9999
  month_pos : 1 ≤ month
  month_le : month ≤ 12
  day_pos : 1 ≤ day
  day_le : day ≤ daysInMonth year month
  hour_lt : hour < 24
  minute_lt : minute < 60
  second_lt : second < 60
  micro_lt : micro < 1000000
deriving DecidableEq, Repr

namespace DateTime

theorem daysInMonth_le (y m : Nat) : daysInMonth y m ≤ 31 := by
  unfold daysInMonth
  split_ifs <;> omega

/-- The fields, most significant first: the order of instants. -/
def instant (d : DateTime) : List Nat :=
  [d.year, d.month, d.day, d.hour, d.minute, d.second, d.micro]

theorem instant_injective : Function.Injective instant := by
  intro a b h
  obtain ⟨⟩ := a
  obtain ⟨⟩ := b
  simp only [instant, List.cons.injEq, and_true] at h
  obtain ⟨rfl, rfl, rfl, rfl, rfl, rfl, rfl⟩ := h
  rfl

instance : LinearOrder DateTime := LinearOrder.lift' instant instant_injective

theorem lt_iff {a b : DateTime} : a < b ↔ a.instant < b.instant := Iff.rfl

/-! ## Arithmetic -/

/-- `date.toordinal()`. -/
def toOrdinal (d : DateTime) : Nat :=
  let y := d.year - 1
  y * 365 + y / 4 - y / 100 + y / 400
    + ((List.range (d.month - 1)).map fun m => daysInMonth d.year (m + 1)).sum + d.day

/-- Microseconds since the calendar's origin; differences are `timedelta`s. -/
def toMicros (d : DateTime) : Nat :=
  (((d.toOrdinal * 24 + d.hour) * 60 + d.minute) * 60 + d.second) * 1000000 + d.micro

/-- The fields of a datetime without a time zone. -/
structure Date where
  year : Nat
  month : Nat
  day : Nat

/-- The day before or after, `none` past the calendar's ends. -/
def shiftDay (d : DateTime) (days : Int) : Option Date :=
  if days = 0 then some ⟨d.year, d.month, d.day⟩
  else if days < 0 then
    if 1 < d.day then some ⟨d.year, d.month, d.day - 1⟩
    else if 1 < d.month then some ⟨d.year, d.month - 1, daysInMonth d.year (d.month - 1)⟩
    else if 1 < d.year then some ⟨d.year - 1, 12, 31⟩
    else none
  else
    if d.day < daysInMonth d.year d.month then some ⟨d.year, d.month, d.day + 1⟩
    else if d.month < 12 then some ⟨d.year, d.month + 1, 1⟩
    else if d.year < 9999 then some ⟨d.year + 1, 1, 1⟩
    else none

theorem daysInMonth_pos (y m : Nat) : 1 ≤ daysInMonth y m := by
  unfold daysInMonth
  split_ifs <;> omega

theorem shiftDay_valid {d : DateTime} {days : Int} {e : Date} (h : d.shiftDay days = some e) :
    1 ≤ e.year ∧ e.year ≤ 9999 ∧ 1 ≤ e.month ∧ e.month ≤ 12 ∧ 1 ≤ e.day ∧
      e.day ≤ daysInMonth e.year e.month := by
  have := d.year_pos
  have := d.year_le
  have := d.month_pos
  have := d.month_le
  have := d.day_pos
  have := d.day_le
  have := daysInMonth_pos d.year (d.month - 1)
  have hdec : daysInMonth (d.year - 1) 12 = 31 := by simp [daysInMonth]
  have hjan : 1 ≤ daysInMonth (d.year + 1) 1 := daysInMonth_pos _ _
  have := daysInMonth_pos d.year (d.month + 1)
  unfold shiftDay at h
  split_ifs at h <;> obtain rfl := Option.some.inj h <;> refine ⟨?_, ?_, ?_, ?_, ?_, ?_⟩ <;>
    simp only [hdec] <;> omega

/-- `astimezone(UTC)` of local fields `d` at `offset` seconds east of UTC. -/
def ofLocal (d : DateTime) (offset : Int) : Option DateTime :=
  let secs : Int := ((d.hour * 60 + d.minute) * 60 + d.second : Nat) - offset
  let s := (secs % 86400).toNat
  match h : d.shiftDay (secs / 86400) with
  | none => none
  | some e =>
    some
      { year := e.year, month := e.month, day := e.day
        hour := s / 3600, minute := s / 60 % 60, second := s % 60, micro := d.micro
        year_pos := (shiftDay_valid h).1
        year_le := (shiftDay_valid h).2.1
        month_pos := (shiftDay_valid h).2.2.1
        month_le := (shiftDay_valid h).2.2.2.1
        day_pos := (shiftDay_valid h).2.2.2.2.1
        day_le := (shiftDay_valid h).2.2.2.2.2
        hour_lt := by omega
        minute_lt := by omega
        second_lt := by omega
        micro_lt := d.micro_lt }

/-- Nothing changes for a datetime that is in UTC already. -/
theorem ofLocal_zero (d : DateTime) : ofLocal d 0 = some d := by
  have := d.hour_lt
  have := d.minute_lt
  have := d.second_lt
  have hdays : (((d.hour * 60 + d.minute) * 60 + d.second : Nat) - (0 : Int)) / 86400 = 0 := by
    omega
  have hshift : d.shiftDay ((((d.hour * 60 + d.minute) * 60 + d.second : Nat) - (0 : Int)) / 86400)
      = some ⟨d.year, d.month, d.day⟩ := by
    rw [hdays]
    rfl
  dsimp only [ofLocal]
  split
  · rename_i h
    rw [hshift] at h
    cases h
  · rename_i e h
    rw [hshift] at h
    obtain rfl := Option.some.inj h
    congr 1
    apply instant_injective
    simp only [instant, List.cons.injEq, and_true, true_and]
    omega

/-! ## Canonical text -/

/-- The decimal text of `n < 10 ^ k` in `k` digits. -/
def pad : Nat → Nat → Str
  | 0, _ => []
  | k + 1, n => digitChar (n / 10 ^ k) :: pad k (n % 10 ^ k)

theorem pad_length (k n : Nat) : (pad k n).length = k := by
  induction k generalizing n with
  | zero => rfl
  | succ k ih => simp [pad, ih]

theorem pad_digits {k n : Nat} : ∀ c ∈ pad k n, isDigit c = true := by
  induction k generalizing n with
  | zero => simp [pad]
  | succ k ih =>
    intro c hc
    rcases List.mem_cons.mp hc with rfl | hc
    · exact isDigit_digitChar _
    · exact ih c hc

theorem readNat_pad {k n : Nat} (h : n < 10 ^ k) : readNat (pad k n) = n := by
  induction k generalizing n with
  | zero =>
    have : n = 0 := by simpa using h
    subst this
    rfl
  | succ k ih =>
    have hpos : 0 < 10 ^ k := Nat.pow_pos (by omega)
    have hq : n / 10 ^ k < 10 := by
      rw [Nat.div_lt_iff_lt_mul hpos, mul_comm]
      exact h
    rw [pad, readNat_cons, ih (Nat.mod_lt _ hpos), pad_length, digitVal_digitChar hq, mul_comm]
    exact Nat.div_add_mod n (10 ^ k)

def secondText (d : DateTime) : Str :=
  pad 4 d.year ++ (cp '-' :: (pad 2 d.month ++ (cp '-' :: (pad 2 d.day ++ (cp 'T' ::
    (pad 2 d.hour ++ (cp ':' :: (pad 2 d.minute ++ (cp ':' :: pad 2 d.second)))))))))

def fractionText (micro : Nat) : Str := if micro = 0 then [] else cp '.' :: pad 6 micro

/-- RFC 3339 text in UTC. -/
def isoZ (d : DateTime) : Str := d.secondText ++ (fractionText d.micro ++ [cp 'Z'])

/-- `isoformat()` of a datetime in UTC. -/
def isoformat (d : DateTime) : Str := d.secondText ++ (fractionText d.micro ++ lit "+00:00")

/-- The key the canonical text is ordered by. -/
def textInstant (d : DateTime) : List Nat :=
  [d.year, d.month, d.day, d.hour, d.minute, d.second,
    if d.micro = 0 then 1000000 else d.micro]

/-! ## The order of the text -/

theorem cons_lt_cons {α : Type} [LinearOrder α] {a b : α} {s t : List α} :
    a :: s < b :: t ↔ a < b ∨ a = b ∧ s < t := List.cons_lt_cons_iff

theorem digitChar_lt {a b : Nat} (ha : a < 10) (hb : b < 10) :
    digitChar a < digitChar b ↔ a < b := by
  simp only [digitChar, Fin.lt_def]
  omega

theorem digitChar_inj {a b : Nat} (ha : a < 10) (hb : b < 10) :
    digitChar a = digitChar b ↔ a = b := by
  simp only [digitChar, Fin.ext_iff]
  omega

/-- Padded numbers are compared as numbers, then by what follows. -/
theorem pad_append_lt {k a b : Nat} (ha : a < 10 ^ k) (hb : b < 10 ^ k) {s t : Str} :
    pad k a ++ s < pad k b ++ t ↔ a < b ∨ a = b ∧ s < t := by
  induction k generalizing a b with
  | zero =>
    have ha0 : a = 0 := by simpa using ha
    have hb0 : b = 0 := by simpa using hb
    simp [ha0, hb0, pad]
  | succ k ih =>
    have hpos : 0 < 10 ^ k := Nat.pow_pos (by omega)
    have hqa : a / 10 ^ k < 10 := by
      rw [Nat.div_lt_iff_lt_mul hpos, mul_comm]
      exact ha
    have hqb : b / 10 ^ k < 10 := by
      rw [Nat.div_lt_iff_lt_mul hpos, mul_comm]
      exact hb
    simp only [pad, List.cons_append, cons_lt_cons, digitChar_lt hqa hqb, digitChar_inj hqa hqb,
      ih (Nat.mod_lt a hpos) (Nat.mod_lt b hpos)]
    -- quotient and remainder determine the number
    have hdiva := Nat.div_add_mod a (10 ^ k)
    have hdivb := Nat.div_add_mod b (10 ^ k)
    have hra := Nat.mod_lt a hpos
    have hrb := Nat.mod_lt b hpos
    have hstep : a / 10 ^ k < b / 10 ^ k → a < b := fun hlt => by
      have := Nat.mul_le_mul_left (10 ^ k) (Nat.succ_le_of_lt hlt)
      rw [Nat.mul_succ] at this
      omega
    have hstep' : b / 10 ^ k < a / 10 ^ k → b < a := fun hlt => by
      have := Nat.mul_le_mul_left (10 ^ k) (Nat.succ_le_of_lt hlt)
      rw [Nat.mul_succ] at this
      omega
    rcases Nat.lt_trichotomy (a / 10 ^ k) (b / 10 ^ k) with hlt | heq | hgt
    · have := hstep hlt
      simp [hlt, this]
    · simp only [heq, lt_irrefl, true_and, false_or]
      rw [heq] at hdiva
      constructor
      · rintro (h | ⟨h, hst⟩)
        · exact .inl (by omega)
        · exact .inr ⟨by omega, hst⟩
      · rintro (h | ⟨h, hst⟩)
        · exact .inl (by omega)
        · exact .inr ⟨by omega, hst⟩
    · have := hstep' hgt
      constructor
      · rintro (h | ⟨h, _⟩) <;> omega
      · rintro (h | ⟨h, _⟩) <;> omega

theorem pad_append_lt_cons {k a b : Nat} (ha : a < 10 ^ k) (hb : b < 10 ^ k) {c : CodePoint}
    {s t : Str} : pad k a ++ c :: s < pad k b ++ c :: t ↔ a < b ∨ a = b ∧ s < t := by
  simp [pad_append_lt ha hb]

/-- The fraction and the final `Z`: a whole second sorts after every fraction. -/
theorem fractionText_lt {a b : Nat} (ha : a < 1000000) (hb : b < 1000000) :
    fractionText a ++ [cp 'Z'] < fractionText b ++ [cp 'Z'] ↔
      (if a = 0 then 1000000 else a) < if b = 0 then 1000000 else b := by
  have hdot : cp '.' < cp 'Z' := by decide
  have hdot' : ¬ cp 'Z' < cp '.' := by decide
  have hne : cp 'Z' ≠ cp '.' := by decide
  by_cases ha0 : a = 0 <;> by_cases hb0 : b = 0
  · simp [ha0, hb0]
  · simp only [fractionText, ha0, hb0, if_true, if_false, List.nil_append, List.cons_append,
      cons_lt_cons, hdot', hne, false_and, or_false, false_iff]
    omega
  · simp only [fractionText, ha0, hb0, if_true, if_false, List.nil_append, List.cons_append,
      cons_lt_cons, hdot, true_or, true_iff]
    omega
  · have hpad := pad_append_lt (k := 6) (a := a) (b := b) (s := [cp 'Z']) (t := [cp 'Z'])
      (by omega) (by omega)
    simp only [fractionText, ha0, hb0, if_false, List.cons_append, cons_lt_cons, lt_irrefl,
      true_and, false_or, hpad, and_false, or_false]

/-- The canonical text is ordered by `textInstant`. -/
theorem isoZ_lt {a b : DateTime} : isoZ a < isoZ b ↔ a.textInstant < b.textInstant := by
  have hday : ∀ d : DateTime, d.day < 10 ^ 2 := fun d => by
    have := d.day_le
    have := daysInMonth_le d.year d.month
    omega
  have hmonth : ∀ d : DateTime, d.month < 10 ^ 2 := fun d => by
    have := d.month_le
    omega
  have hyear : ∀ d : DateTime, d.year < 10 ^ 4 := fun d => by
    have := d.year_le
    omega
  have hhour : ∀ d : DateTime, d.hour < 10 ^ 2 := fun d => by
    have := d.hour_lt
    omega
  have hminute : ∀ d : DateTime, d.minute < 10 ^ 2 := fun d => by
    have := d.minute_lt
    omega
  have hsecond : ∀ d : DateTime, d.second < 10 ^ 2 := fun d => by
    have := d.second_lt
    omega
  simp only [isoZ, secondText, List.append_assoc, List.cons_append, textInstant, cons_lt_cons,
    pad_append_lt_cons (hyear a) (hyear b), pad_append_lt_cons (hmonth a) (hmonth b),
    pad_append_lt_cons (hday a) (hday b), pad_append_lt_cons (hhour a) (hhour b),
    pad_append_lt_cons (hminute a) (hminute b), pad_append_lt (hsecond a) (hsecond b),
    fractionText_lt a.micro_lt b.micro_lt, List.not_lt_nil, and_false, or_false]

/-- Text and instants agree unless exactly one of two equal seconds has a fraction. -/
def SameFraction (a b : DateTime) : Prop := a.micro = 0 ↔ b.micro = 0

/-- The same second. -/
def SameSecond (a b : DateTime) : Prop :=
  a.year = b.year ∧ a.month = b.month ∧ a.day = b.day ∧ a.hour = b.hour ∧ a.minute = b.minute ∧
    a.second = b.second

instance (a b : DateTime) : Decidable (SameFraction a b) := by
  unfold SameFraction; infer_instance

instance (a b : DateTime) : Decidable (SameSecond a b) := by
  unfold SameSecond; infer_instance

theorem isoZ_lt_of_sameFraction {a b : DateTime} (h : SameSecond a b → SameFraction a b) :
    isoZ a < isoZ b ↔ a < b := by
  have hmicro : SameSecond a b → ((if a.micro = 0 then 1000000 else a.micro)
      < (if b.micro = 0 then 1000000 else b.micro) ↔ a.micro < b.micro) := by
    intro hs
    have hf := h hs
    unfold SameFraction at hf
    have := a.micro_lt
    have := b.micro_lt
    split_ifs <;> omega
  rw [isoZ_lt, lt_iff]
  simp only [textInstant, instant, cons_lt_cons, List.not_lt_nil, and_false, or_false]
  unfold SameSecond at hmicro
  grind

/-- A whole second and a fraction of the same second: the text has them the wrong way round. -/
theorem isoZ_lt_of_whole {a b : DateTime} (hs : SameSecond a b) (ha : a.micro = 0)
    (hb : b.micro ≠ 0) : a < b ∧ isoZ b < isoZ a := by
  have hlt := b.micro_lt
  obtain ⟨h1, h2, h3, h4, h5, h6⟩ := hs
  refine ⟨?_, ?_⟩
  · rw [lt_iff]
    simp only [instant, h1, h2, h3, h4, h5, h6, cons_lt_cons, lt_irrefl, true_and, false_or,
      and_false, or_false]
    omega
  · rw [isoZ_lt]
    simp only [textInstant, h1, h2, h3, h4, h5, h6, cons_lt_cons, lt_irrefl, true_and, false_or,
      and_false, or_false, ha, hb, if_true, if_false]
    exact hlt

theorem isoZ_ascii (d : DateTime) : ∀ c ∈ d.isoZ, c.val < 0x80 := by
  have hpad : ∀ k n, ∀ c ∈ pad k n, c.val < 0x80 := fun k n c hc => by
    have := pad_digits c hc
    simp only [isDigit, Bool.and_eq_true, decide_eq_true_eq] at this
    omega
  intro c hc
  simp only [isoZ, secondText, fractionText, List.mem_append, List.mem_cons] at hc
  rcases hc with (h | rfl | h | rfl | h | rfl | h | rfl | h | rfl | h) | h | rfl | h
  all_goals first | exact hpad _ _ c h | decide | skip
  · split_ifs at h
    · simp at h
    · rcases List.mem_cons.mp h with rfl | h
      · decide
      · exact hpad _ _ c h
  · simp at h

theorem isoZ_injective : Function.Injective isoZ := by
  intro a b h
  have hnot : ¬ isoZ a < isoZ b ∧ ¬ isoZ b < isoZ a := by simp [h]
  rw [isoZ_lt, isoZ_lt] at hnot
  have heq : a.textInstant = b.textInstant := le_antisymm (not_lt.mp hnot.2) (not_lt.mp hnot.1)
  apply instant_injective
  simp only [textInstant, instant, List.cons.injEq, and_true] at heq ⊢
  have := a.micro_lt
  have := b.micro_lt
  refine ⟨heq.1, heq.2.1, heq.2.2.1, heq.2.2.2.1, heq.2.2.2.2.1, heq.2.2.2.2.2.1, ?_⟩
  have hm := heq.2.2.2.2.2.2
  split_ifs at hm <;> omega

end DateTime

end Py
