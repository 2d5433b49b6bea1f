import ActionLineage.Py.Utf8

/-!
# Python floats — binary64, rounding and the shortest decimal text

A finite float is a sign and a magnitude; the magnitude is its bit pattern, so magnitudes are
ordered as natural numbers. Every finite magnitude is a whole number of units of `2⁻¹⁰⁷⁴`
(`units`), which turns correct rounding into integer arithmetic.

* `ofRatio` rounds a non-negative ratio to nearest, ties to even (`float(str)`, `int / int`).
* `shortest` is the digit search behind `repr`: the fewest significant digits that read back.
* `ofDecimal_shortest` is the documented law `float(repr(x)) == x`. It needs no bound on how many
  digits suffice: past seventeen digits the search falls back on the exact expansion, and rounding
  is the identity on exact values (`roundBits_exact`).
-/

namespace Py

/-- The first bit pattern that is not a finite magnitude. -/
abbrev infBits : Nat := 0x7FF0000000000000

inductive Binary64
  | finite (neg : Bool) (bits : Fin infBits)
  | inf (neg : Bool)
  | nan
deriving DecidableEq, Repr

namespace Binary64

/-- `math.isfinite`. -/
def isFinite : Binary64 → Bool
  | .finite _ _ => true
  | _ => false

/-- A magnitude in units of `2⁻¹⁰⁷⁴`. -/
def units (bits : Nat) : Nat :=
  if bits < 2 ^ 53 then bits else (2 ^ 52 + bits % 2 ^ 52) * 2 ^ (bits / 2 ^ 52 - 1)

/-- Division rounded to nearest, ties to even. -/
def roundDiv (n d : Nat) : Nat :=
  if 2 * (n % d) < d then n / d
  else if d < 2 * (n % d) then n / d + 1
  else if n / d % 2 = 0 then n / d else n / d + 1

/-- The bit pattern nearest to `num / den`. The quotient in units decides the exponent; a
significand that rounds up to `2⁵³` carries into the exponent by itself. -/
def roundBits (num den : Nat) : Nat :=
  let shift := (num * 2 ^ 1074 / den).log2 - 52
  shift * 2 ^ 52 + roundDiv (num * 2 ^ 1074) (den * 2 ^ shift)

def ofRatio (neg : Bool) (num den : Nat) : Binary64 :=
  if h : roundBits num den < infBits then .finite neg ⟨roundBits num den, h⟩ else .inf neg

/-- The float nearest to `±D · 10^p`. -/
def ofDecimal (neg : Bool) (D : Nat) (p : Int) : Binary64 :=
  ofRatio neg (D * 10 ^ p.toNat) (10 ^ (-p).toNat)

/-! ## Rounding depends on the ratio only -/

theorem roundDiv_mul_right (n d c : Nat) (hc : 0 < c) :
    roundDiv (n * c) (d * c) = roundDiv n d := by
  have hq : n * c / (d * c) = n / d := Nat.mul_div_mul_right n d hc
  have hr : n * c % (d * c) = n % d * c := Nat.mul_mod_mul_right c n d
  have hlt : 2 * (n % d * c) < d * c ↔ 2 * (n % d) < d := by
    rw [← mul_assoc]
    exact Nat.mul_lt_mul_right hc
  have hgt : d * c < 2 * (n % d * c) ↔ d < 2 * (n % d) := by
    rw [← mul_assoc]
    exact Nat.mul_lt_mul_right hc
  simp only [roundDiv, hq, hr, hlt, hgt]

theorem roundDiv_mul_self (m d : Nat) (hd : 0 < d) : roundDiv (m * d) d = m := by
  have hq : m * d / d = m := Nat.mul_div_cancel m hd
  simp [roundDiv, hq, hd]

theorem roundBits_mul_right (n d c : Nat) (hc : 0 < c) :
    roundBits (n * c) (d * c) = roundBits n d := by
  have hq : n * c * 2 ^ 1074 / (d * c) = n * 2 ^ 1074 / d := by
    rw [mul_right_comm]
    exact Nat.mul_div_mul_right _ d hc
  simp only [roundBits, hq]
  rw [mul_right_comm n c, mul_right_comm d c, roundDiv_mul_right _ _ _ hc]

theorem roundBits_congr {n d n' d' : Nat} (hd : 0 < d) (hd' : 0 < d') (h : n * d' = n' * d) :
    roundBits n d = roundBits n' d' := by
  rw [← roundBits_mul_right n d d' hd', ← roundBits_mul_right n' d' d hd, h, mul_comm d d']

/-! ## Rounding is the identity on exact values -/

/-- A pattern in the normal range: its significand and exponent. -/
theorem units_normal {bits : Nat} (h : 2 ^ 53 ≤ bits) :
    ∃ m s, units bits = m * 2 ^ s ∧ 2 ^ 52 ≤ m ∧ m < 2 ^ 53 ∧ bits = s * 2 ^ 52 + m := by
  refine ⟨2 ^ 52 + bits % 2 ^ 52, bits / 2 ^ 52 - 1, ?_, by omega, by omega, by omega⟩
  rw [units, if_neg (by omega)]

theorem log2_units_sub (bits : Nat) :
    ∃ s m, (units bits).log2 - 52 = s ∧ units bits = m * 2 ^ s ∧ bits = s * 2 ^ 52 + m := by
  by_cases h : bits < 2 ^ 53
  · have hu : units bits = bits := by rw [units, if_pos h]
    refine ⟨0, bits, ?_, by simpa using hu, by simp⟩
    rw [hu]
    by_cases h0 : bits = 0
    · simp [h0]
    · have := (Nat.log2_lt h0).mpr h
      omega
  · obtain ⟨m, s, hu, hlo, hhi, hb⟩ := units_normal (Nat.le_of_not_lt h)
    refine ⟨s, m, ?_, hu, hb⟩
    have hlog : (units bits).log2 = 52 + s := by
      rw [hu, Nat.log2_eq_iff (by positivity)]
      constructor
      · rw [pow_add]
        exact Nat.mul_le_mul_right _ hlo
      · rw [show 52 + s + 1 = 53 + s from by omega, pow_add]
        exact Nat.mul_lt_mul_of_pos_right hhi (by positivity)
    omega

/-- A ratio that is exactly a float rounds to that float. -/
theorem roundBits_exact {num den bits : Nat} (hden : 0 < den)
    (h : num * 2 ^ 1074 = units bits * den) : roundBits num den = bits := by
  obtain ⟨s, m, hlog, hu, hb⟩ := log2_units_sub bits
  have hq : num * 2 ^ 1074 / den = units bits := by
    rw [h]
    exact Nat.mul_div_cancel _ hden
  simp only [roundBits, hq, hlog]
  rw [h, hu, mul_assoc, mul_comm (2 ^ s) den, roundDiv_mul_self m _ (by positivity)]
  exact hb.symm

/-! ## Decimal candidates -/

/-- `D · 10^p` and `D' · 10^p'` are the same number. -/
def SameDecimal (D : Nat) (p : Int) (D' : Nat) (p' : Int) : Prop :=
  D * 10 ^ p.toNat * 10 ^ (-p').toNat = D' * 10 ^ p'.toNat * 10 ^ (-p).toNat

theorem ofDecimal_congr {D D' : Nat} {p p' : Int} (neg : Bool) (h : SameDecimal D p D' p') :
    ofDecimal neg D p = ofDecimal neg D' p' := by
  simp only [ofDecimal, ofRatio,
    roundBits_congr (n := D * 10 ^ p.toNat) (d := 10 ^ (-p).toNat) (by positivity) (by positivity) h]

/-- Moving `k` zeros between the digits and the exponent changes nothing. -/
theorem sameDecimal_shift (D k : Nat) (p : Int) : SameDecimal (D * 10 ^ k) (p - k) D p := by
  unfold SameDecimal
  rw [mul_assoc, mul_assoc, mul_assoc, ← pow_add, ← pow_add, ← pow_add]
  congr 2
  omega

/-- The decimal exponent of the leading digit. Every positive magnitude exceeds `10⁻⁴⁰⁰`. -/
def leadingExponent (bits : Nat) : Int :=
  (Nat.log 10 (units bits * 10 ^ 400 / 2 ^ 1074) : Int) - 400

/-- The decimals with `n` significant digits next to the magnitude, nearest first. -/
def candidates (bits n : Nat) : List (Nat × Int) :=
  let p := leadingExponent bits - n + 1
  let num := units bits * 10 ^ (-p).toNat
  let den := 2 ^ 1074 * 10 ^ p.toNat
  [(roundDiv num den, p), (num / den, p), (num / den + 1, p)]

/-- Does the decimal read back as the magnitude? -/
def readsBack (bits : Fin infBits) (c : Nat × Int) : Bool :=
  ofDecimal false c.1 c.2 == .finite false bits

def shortest (bits : Fin infBits) : Nat × Int :=
  (((List.range 17).flatMap fun n => candidates bits (n + 1)).find? (readsBack bits)).getD
    (units bits * 5 ^ 1074, -1074)

theorem ofDecimal_neg {D : Nat} {p : Int} {bits : Fin infBits} (neg : Bool)
    (h : ofDecimal false D p = .finite false bits) : ofDecimal neg D p = .finite neg bits := by
  unfold ofDecimal ofRatio at *
  split at h
  · rename_i hlt
    rw [dif_pos hlt]
    simpa using h
  · simp at h

/-- `float(repr(x)) == x`, at the level of digits and exponents. -/
theorem ofDecimal_shortest (neg : Bool) (bits : Fin infBits) :
    ofDecimal neg (shortest bits).1 (shortest bits).2 = .finite neg bits := by
  apply ofDecimal_neg
  unfold shortest
  cases hfind : ((List.range 17).flatMap fun n => candidates bits (n + 1)).find? (readsBack bits) with
  | some c =>
    have hc := List.find?_some hfind
    simpa [readsBack] using hc
  | none =>
    have hexact : roundBits (units bits * 5 ^ 1074 * 10 ^ (-1074 : Int).toNat)
        (10 ^ (-(-1074) : Int).toNat) = bits := by
      apply roundBits_exact (Nat.pow_pos (by omega))
      have hpow : ∀ k, (10 : Nat) ^ k = 5 ^ k * 2 ^ k := Nat.mul_pow 5 2
      simp only [show (-1074 : Int).toNat = 0 from rfl, show (-(-1074) : Int).toNat = 1074 from rfl,
        pow_zero, mul_one]
      rw [hpow, mul_assoc]
    simp only [Option.getD_none, ofDecimal, ofRatio, hexact]
    rw [dif_pos bits.isLt]

end Binary64

end Py
