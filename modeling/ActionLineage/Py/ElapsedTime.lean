import ActionLineage.Py.Compare
import ActionLineage.Py.DateTime

/-!
# Elapsed time keeps order

Microseconds count the instants of the calendar in their order (`DateTime.toMicros_le`), and correct
rounding is monotone: within one exponent it is division rounded to nearest, and a larger exponent
leaves room for every rounded significand of a smaller one. So a longer time is never fewer seconds
(`totalSeconds_mono`).
-/

namespace Py

/-! ## The calendar -/

namespace DateTime

/-- The days before a month of the year. -/
def daysBeforeMonth (y m : Nat) : Nat :=
  ((List.range (m - 1)).map fun i => daysInMonth y (i + 1)).sum

/-- The days before a year. -/
def daysBeforeYear (y : Nat) : Nat :=
  (y - 1) * 365 + (y - 1) / 4 - (y - 1) / 100 + (y - 1) / 400

theorem toOrdinal_eq (d : DateTime) :
    d.toOrdinal = daysBeforeYear d.year + daysBeforeMonth d.year d.month + d.day :=
  rfl

theorem daysBeforeMonth_succ (y : Nat) {m : Nat} (hm : 1 ≤ m) :
    daysBeforeMonth y (m + 1) = daysBeforeMonth y m + daysInMonth y m := by
  obtain ⟨k, rfl⟩ : ∃ k, m = k + 1 := ⟨m - 1, by omega⟩
  simp [daysBeforeMonth, List.range_succ]

theorem daysBeforeMonth_mono (y : Nat) {m m' : Nat} (h : m ≤ m') :
    daysBeforeMonth y m ≤ daysBeforeMonth y m' := by
  induction m', h using Nat.le_induction with
  | base => exact le_refl _
  | succ m' _ ih =>
    rcases Nat.eq_zero_or_pos m' with rfl | hm
    · exact ih
    · rw [daysBeforeMonth_succ y hm]
      exact ih.trans (Nat.le_add_right _ _)

theorem daysBeforeYear_mono {y y' : Nat} (h : y ≤ y') : daysBeforeYear y ≤ daysBeforeYear y' := by
  refine monotone_nat_of_le_succ (fun n => ?_) h
  unfold daysBeforeYear
  omega

/-- A year ends before the next one begins. -/
theorem year_le_next {y : Nat} (hy : 1 ≤ y) :
    daysBeforeYear y + daysBeforeMonth y 13 ≤ daysBeforeYear (y + 1) := by
  have hdays : daysBeforeMonth y 13 = 365 + if isLeap y then 1 else 0 := by
    rw [show daysBeforeMonth y 13
      = 31 + (daysInMonth y 2 + (31 + (30 + (31 + (30 + (31 + (31 + (30 + (31 + (30 + 31))))))))))
        from rfl]
    simp only [daysInMonth, if_true]
    split <;> rfl
  rw [hdays]
  unfold daysBeforeYear isLeap
  split
  · rename_i hleap
    have := of_decide_eq_true hleap
    omega
  · rename_i hleap
    have := of_decide_eq_false (Bool.eq_false_iff.mpr hleap)
    omega

/-- A day has one number more than the days of its month before it, and its month fits the year. -/
theorem dayOfYear_le (d : DateTime) : daysBeforeMonth d.year d.month + d.day
    ≤ daysBeforeMonth d.year (d.month + 1) := by
  rw [daysBeforeMonth_succ d.year d.month_pos]
  exact Nat.add_le_add_left d.day_le _

theorem toOrdinal_lt {a b : DateTime}
    (h : a.year < b.year ∨ a.year = b.year ∧ (a.month < b.month ∨ a.month = b.month ∧ a.day < b.day)) :
    a.toOrdinal < b.toOrdinal := by
  have hpos := b.day_pos
  rw [toOrdinal_eq, toOrdinal_eq]
  rcases h with hyear | ⟨hyear, hmonth | ⟨hmonth, hday⟩⟩
  · have hwithin : daysBeforeMonth a.year a.month + a.day ≤ daysBeforeMonth a.year 13 :=
      (dayOfYear_le a).trans (daysBeforeMonth_mono a.year (Nat.succ_le_succ a.month_le))
    have hnext := year_le_next a.year_pos
    have hyears : daysBeforeYear (a.year + 1) ≤ daysBeforeYear b.year := daysBeforeYear_mono hyear
    omega
  · have hwithin : daysBeforeMonth a.year a.month + a.day ≤ daysBeforeMonth a.year b.month :=
      (dayOfYear_le a).trans (daysBeforeMonth_mono a.year hmonth)
    rw [← hyear]
    omega
  · rw [← hyear, ← hmonth]
    omega

/-- An earlier instant has fewer microseconds. -/
theorem toMicros_lt {a b : DateTime} (h : a < b) : a.toMicros < b.toMicros := by
  have := a.hour_lt
  have := a.minute_lt
  have := a.second_lt
  have := a.micro_lt
  have hlex := lt_iff.mp h
  simp only [instant, List.cons_lt_cons_iff, List.lt_irrefl, and_false, or_false] at hlex
  by_cases hdate : a.year = b.year ∧ a.month = b.month ∧ a.day = b.day
  · obtain ⟨hyear, hmonth, hday⟩ := hdate
    have hordinal : a.toOrdinal = b.toOrdinal := by
      rw [toOrdinal_eq, toOrdinal_eq, hyear, hmonth, hday]
    unfold toMicros
    omega
  · have hordinal : a.toOrdinal < b.toOrdinal := toOrdinal_lt (by omega)
    unfold toMicros
    omega

theorem toMicros_le {a b : DateTime} (h : a ≤ b) : a.toMicros ≤ b.toMicros := by
  rcases h.lt_or_eq with hlt | rfl
  · exact (toMicros_lt hlt).le
  · exact le_refl _

end DateTime

/-! ## Rounding -/

namespace Binary64

theorem roundDiv_le_succ (n d : Nat) : roundDiv n d ≤ n / d + 1 := by
  unfold roundDiv
  split
  · omega
  · split
    · exact le_refl _
    · split <;> omega

theorem le_roundDiv (n d : Nat) : n / d ≤ roundDiv n d := by
  unfold roundDiv
  split
  · exact le_refl _
  · split
    · omega
    · split <;> omega

theorem roundDiv_mono {n n' d : Nat} (h : n ≤ n') : roundDiv n d ≤ roundDiv n' d := by
  have hq : n / d ≤ n' / d := Nat.div_le_div_right h
  by_cases hlt : n / d < n' / d
  · exact (roundDiv_le_succ n d).trans (hlt.trans_le (le_roundDiv n' d))
  · have heq : n / d = n' / d := by omega
    -- the same quotient: the larger remainder is rounded up if the smaller one is
    have hr : n % d ≤ n' % d := by
      have hn := Nat.div_add_mod n d
      have hn' := Nat.div_add_mod n' d
      rw [heq] at hn
      omega
    unfold roundDiv
    rw [heq]
    split_ifs <;> omega

/-- A significand below `2⁵³` rounds to at most `2⁵³`. -/
theorem roundDiv_le_of_lt {n d m : Nat} (h : n < m * d) : roundDiv n d ≤ m := by
  have hd : 0 < d := by
    rcases Nat.eq_zero_or_pos d with rfl | hd
    · simp at h
    · exact hd
  have hq : n / d < m := (Nat.div_lt_iff_lt_mul hd).mpr h
  exact (roundDiv_le_succ n d).trans hq

theorem le_roundDiv_of_le {n d m : Nat} (hd : 0 < d) (h : m * d ≤ n) : m ≤ roundDiv n d :=
  ((Nat.le_div_iff_mul_le hd).mpr h).trans (le_roundDiv n d)

theorem roundBits_mono {num num' den : Nat} (hden : 0 < den) (h : num ≤ num') :
    roundBits num den ≤ roundBits num' den := by
  have hnum : num * 2 ^ 1074 ≤ num' * 2 ^ 1074 := Nat.mul_le_mul_right _ h
  have hquot : num * 2 ^ 1074 / den ≤ num' * 2 ^ 1074 / den := Nat.div_le_div_right hnum
  unfold roundBits
  generalize num * 2 ^ 1074 = n at hnum hquot ⊢
  generalize num' * 2 ^ 1074 = n' at hnum hquot ⊢
  dsimp only
  have hlog : (n / den).log2 ≤ (n' / den).log2 := by
    rw [Nat.log2_eq_log_two, Nat.log2_eq_log_two]
    exact Nat.log_mono_right hquot
  rcases Nat.lt_or_ge ((n / den).log2 - 52) ((n' / den).log2 - 52) with hlt | hge
  · -- a larger exponent
    have hupper : roundDiv n (den * 2 ^ ((n / den).log2 - 52)) ≤ 2 ^ 53 := by
      apply roundDiv_le_of_lt
      have hq : n / den < 2 ^ ((n / den).log2 + 1) := Nat.lt_log2_self
      have hpow : 2 ^ ((n / den).log2 + 1) ≤ 2 ^ 53 * 2 ^ ((n / den).log2 - 52) := by
        rw [← pow_add]
        exact Nat.pow_le_pow_right (by decide) (by omega)
      have hn := (Nat.div_lt_iff_lt_mul hden).mp (hq.trans_le hpow)
      rwa [mul_assoc, mul_comm (2 ^ _) den] at hn
    have hlower : 2 ^ 52 ≤ roundDiv n' (den * 2 ^ ((n' / den).log2 - 52)) := by
      apply le_roundDiv_of_le (by positivity)
      have hne : n' / den ≠ 0 := by
        intro hzero
        rw [hzero] at hlt
        simp at hlt
      have hpow : 2 ^ 52 * 2 ^ ((n' / den).log2 - 52) ≤ n' / den := by
        rw [← pow_add, show 52 + ((n' / den).log2 - 52) = (n' / den).log2 by omega]
        exact Nat.log2_self_le hne
      have hn := (Nat.le_div_iff_mul_le hden).mp hpow
      rwa [mul_assoc, mul_comm (2 ^ _) den] at hn
    omega
  · have hshift : (n / den).log2 - 52 = (n' / den).log2 - 52 := by omega
    rw [hshift]
    have hround := roundDiv_mono (d := den * 2 ^ ((n' / den).log2 - 52)) hnum
    omega

/-! ## The order of floats -/

theorem units_mono {a b : Nat} (h : a ≤ b) : units a ≤ units b := by
  by_cases hb : b < 2 ^ 53
  · rw [units, if_pos (by omega), units, if_pos hb]
    exact h
  · obtain ⟨m', s', hu', hlo', hhi', hb'⟩ := units_normal (Nat.le_of_not_lt hb)
    rw [hu']
    by_cases ha : a < 2 ^ 53
    · rw [units, if_pos ha]
      have hs' : 1 ≤ s' := by omega
      calc a ≤ 2 ^ 53 := ha.le
        _ = 2 ^ 52 * 2 ^ 1 := by norm_num
        _ ≤ m' * 2 ^ s' := Nat.mul_le_mul hlo' (Nat.pow_le_pow_right (by decide) hs')
    · obtain ⟨m, s, hu, hlo, hhi, ha'⟩ := units_normal (Nat.le_of_not_lt ha)
      rw [hu]
      rcases Nat.lt_or_ge s s' with hlt | hge
      · calc m * 2 ^ s ≤ 2 ^ 53 * 2 ^ s := Nat.mul_le_mul_right _ hhi.le
          _ = 2 ^ 52 * 2 ^ (s + 1) := by ring
          _ ≤ m' * 2 ^ s' := Nat.mul_le_mul hlo' (Nat.pow_le_pow_right (by decide) hlt)
      · obtain rfl : s = s' := by omega
        exact Nat.mul_le_mul_right _ (by omega)

theorem le_nan (a : Binary64) : a.le .nan = false := by
  rcases a with _ | _ | _ <;> rfl

theorem le_trans {a b c : Binary64} (hab : a.le b = true) (hbc : b.le c = true) :
    a.le c = true := by
  match a, b, c with
  | .nan, _, _ => simp [le] at hab
  | .inf true, .nan, _ => simp [le] at hab
  | .inf true, _, .nan => simp [le_nan] at hbc
  | .inf true, _, .finite _ _ => rfl
  | .inf true, _, .inf _ => rfl
  | .inf false, .inf false, _ => exact hbc
  | .inf false, .inf true, _ => simp [le] at hab
  | .inf false, .nan, _ => simp [le] at hab
  | .inf false, .finite _ _, _ => simp [le] at hab
  | .finite _ _, .nan, _ => simp [le] at hab
  | .finite _ _, .inf true, _ => simp [le] at hab
  | .finite _ _, .inf false, .inf false => rfl
  | .finite _ _, .inf false, .inf true => simp [le] at hbc
  | .finite _ _, .inf false, .finite _ _ => simp [le] at hbc
  | .finite _ _, .inf false, .nan => simp [le] at hbc
  | .finite _ _, .finite _ _, .nan => simp [le] at hbc
  | .finite _ _, .finite _ _, .inf true => simp [le] at hbc
  | .finite _ _, .finite _ _, .inf false => rfl
  | .finite _ _, .finite _ _, .finite _ _ =>
    simp only [le, decide_eq_true_eq] at hab hbc ⊢
    exact hab.trans hbc

theorem lt_of_not_le {a b : Binary64} (ha : a ≠ .nan) (hb : b ≠ .nan) (h : b.le a = false) :
    a.lt b = true := by
  have hle : a.le b = true := by
    match a, b with
    | .nan, _ => exact absurd rfl ha
    | _, .nan => exact absurd rfl hb
    | .inf true, .finite _ _ => rfl
    | .inf true, .inf _ => rfl
    | .inf false, .inf false => rfl
    | .inf false, .inf true => simp [le] at h
    | .inf false, .finite _ _ => simp [le] at h
    | .finite _ _, .inf false => rfl
    | .finite _ _, .inf true => simp [le] at h
    | .finite _ _, .finite _ _ =>
      simp only [le, decide_eq_false_iff_not, not_le] at h
      exact decide_eq_true h.le
  rw [lt, hle, h]
  rfl

theorem ofRatio_ne_nan (neg : Bool) (num den : Nat) : ofRatio neg num den ≠ .nan := by
  unfold ofRatio
  split <;> simp

/-- A larger ratio is no smaller float. -/
theorem ofRatio_mono {num num' den : Nat} (hden : 0 < den) (h : num ≤ num') :
    (ofRatio false num den).le (ofRatio false num' den) = true := by
  have hbits := roundBits_mono hden h
  unfold ofRatio
  by_cases hlarge : roundBits num' den < infBits
  · rw [dif_pos (by omega), dif_pos hlarge]
    exact decide_eq_true (Int.ofNat_le.mpr (units_mono hbits))
  · rw [dif_neg hlarge]
    split <;> rfl

end Binary64

theorem totalSeconds_ne_nan (micros : Int) : totalSeconds micros ≠ .nan :=
  Binary64.ofRatio_ne_nan _ _ _

/-- A longer time is no fewer seconds. -/
theorem totalSeconds_mono {a b : Int} (ha : 0 ≤ a) (h : a ≤ b) :
    (totalSeconds a).le (totalSeconds b) = true := by
  have hsign : ∀ {x : Int}, 0 ≤ x → decide (x < 0) = false := fun hx =>
    decide_eq_false (not_lt.mpr hx)
  rw [totalSeconds, totalSeconds, hsign ha, hsign (ha.trans h)]
  exact Binary64.ofRatio_mono (by decide) (by omega)

end Py
