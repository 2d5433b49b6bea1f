import Mathlib

/-!
# Python text — code points, decimal text, bytes and lines

`str` is a sequence of code points, lone surrogates included; `bytes` is a sequence of octets.
Everything the journal writes is ordered by code point (`sort_keys=True`), so the order used
throughout is the lexicographic order `List` already carries.

* `lit` embeds a source literal.
* `natText` / `readNat` are `str(n)` and `int(s)` for a run of ASCII digits; `readNat_natText`
  is the round trip every integer of a canonical record relies on.
* `splitLines` is binary file iteration: every chunk ends in `\n` except possibly the last.
-/

namespace Py

/-- A Python code point. Surrogates are ordinary members of a `str`. -/
abbrev CodePoint := Fin 0x110000

abbrev Str := List CodePoint

instance : LawfulBEq Str := inferInstance

abbrev Byte := Fin 256

abbrev Bytes := List Byte

/-- The character with the number of the byte exists. -/
theorem byte_lt (b : Byte) : b.val < 0x110000 := Nat.lt_trans b.isLt (by decide)

/-- The code point of a source character. -/
def cp (c : Char) : CodePoint :=
  ⟨c.toNat, by
    have h := c.valid
    simp only [UInt32.isValidChar, Nat.isValidChar] at h
    change c.toNat < _ ∨ _ ∧ c.toNat < _ at h
    omega⟩

/-- A string literal of the source. These are ASCII, so the bytes are the characters. -/
def lit (s : String) : Str :=
  s.toByteArray.data.toList.map fun b =>
    ⟨b.toNat, by
      have := b.toNat_lt
      omega⟩

def isSurrogate (c : CodePoint) : Bool := 0xD800 ≤ c.val && c.val ≤ 0xDFFF

def isHighSurrogate (c : CodePoint) : Bool := 0xD800 ≤ c.val && c.val ≤ 0xDBFF

def isLowSurrogate (c : CodePoint) : Bool := 0xDC00 ≤ c.val && c.val ≤ 0xDFFF

/-- No lone surrogate: what `.encode("utf-8")` accepts. -/
def SurrogateFree (s : Str) : Prop := ∀ c ∈ s, isSurrogate c = false

instance (s : Str) : Decidable (SurrogateFree s) :=
  decidable_of_iff (s.all fun c => !isSurrogate c) (by simp [SurrogateFree])

theorem SurrogateFree.append {a b : Str} (ha : SurrogateFree a) (hb : SurrogateFree b) :
    SurrogateFree (a ++ b) := by
  intro c hc
  rcases List.mem_append.mp hc with h | h
  · exact ha c h
  · exact hb c h

theorem surrogateFree_append_iff {a b : Str} : SurrogateFree (a ++ b) ↔ SurrogateFree a ∧ SurrogateFree b := by
  constructor
  · intro h
    exact ⟨fun c hc => h c (List.mem_append_left _ hc), fun c hc => h c (List.mem_append_right _ hc)⟩
  · rintro ⟨ha, hb⟩
    exact ha.append hb

theorem surrogateFree_cons_iff {c : CodePoint} {s : Str} :
    SurrogateFree (c :: s) ↔ isSurrogate c = false ∧ SurrogateFree s := by
  simp [SurrogateFree]

/-! ## ASCII digits -/

def isDigit (c : CodePoint) : Bool := 48 ≤ c.val && c.val ≤ 57

/-- The digit of `d % 10`. -/
def digitChar (d : Nat) : CodePoint := ⟨48 + d % 10, by omega⟩

def digitVal (c : CodePoint) : Nat := c.val - 48

@[simp] theorem isDigit_digitChar (d : Nat) : isDigit (digitChar d) = true := by
  simp only [isDigit, Bool.and_eq_true, decide_eq_true_eq]
  simp only [digitChar]
  omega

theorem digitVal_digitChar {d : Nat} (h : d < 10) : digitVal (digitChar d) = d := by
  simp only [digitVal, digitChar]
  omega

theorem isSurrogate_of_isDigit {c : CodePoint} (h : isDigit c = true) : isSurrogate c = false := by
  simp only [isDigit, isSurrogate, Bool.and_eq_true, decide_eq_true_eq, Bool.and_eq_false_iff,
    decide_eq_false_iff_not] at *
  omega

/-- `str(n)` for a natural number. -/
def natText (n : Nat) : Str :=
  if n = 0 then [digitChar 0] else (Nat.digits 10 n).reverse.map digitChar

/-- `int(s)` for a run of ASCII digits. -/
def readNat (s : Str) : Nat := s.foldl (fun n c => 10 * n + digitVal c) 0

theorem natText_digits (n : Nat) : ∀ c ∈ natText n, isDigit c = true := by
  unfold natText
  split
  · simp
  · intro c hc
    obtain ⟨d, _, rfl⟩ := List.mem_map.mp hc
    exact isDigit_digitChar d

theorem natText_ne_nil (n : Nat) : natText n ≠ [] := by
  unfold natText
  split
  · simp
  · rename_i h
    simpa [Nat.digits_eq_nil_iff_eq_zero] using h

theorem readNat_append (a b : Str) :
    readNat (a ++ b) = readNat a * 10 ^ b.length + readNat b := by
  induction b using List.reverseRecOn with
  | nil => simp [readNat]
  | append_singleton b c ih =>
    have hstep : ∀ s : Str, readNat (s ++ [c]) = 10 * readNat s + digitVal c := by
      intro s
      simp [readNat]
    rw [← List.append_assoc, hstep, hstep, ih, List.length_append, List.length_singleton, pow_succ]
    ring

theorem readNat_cons (c : CodePoint) (s : Str) :
    readNat (c :: s) = digitVal c * 10 ^ s.length + readNat s := by
  have h := readNat_append [c] s
  simpa [readNat] using h

/-- Reading the reversed digits of a base-ten expansion gives the number back. -/
theorem readNat_map_reverse (ds : List Nat) (h : ∀ d ∈ ds, d < 10) :
    readNat (ds.reverse.map digitChar) = Nat.ofDigits 10 ds := by
  induction ds with
  | nil => simp [readNat]
  | cons d ds ih =>
    have hd : d < 10 := h d (by simp)
    rw [List.reverse_cons, List.map_append, readNat_append,
      ih (fun x hx => h x (by simp [hx])), Nat.ofDigits_cons]
    simp [readNat, digitVal_digitChar hd]
    ring

theorem readNat_natText (n : Nat) : readNat (natText n) = n := by
  unfold natText
  split
  · rename_i h
    subst h
    decide
  · rw [readNat_map_reverse _ (fun d hd => Nat.digits_lt_base (by norm_num) hd),
      Nat.ofDigits_digits]

/-- No leading zero, except for zero itself. -/
theorem natText_head_ne_zero {n : Nat} (h : n ≠ 0) :
    ∃ c s, natText n = c :: s ∧ isDigit c = true ∧ c ≠ digitChar 0 := by
  have hne : Nat.digits 10 n ≠ [] := Nat.digits_ne_nil_iff_ne_zero.mpr h
  have hlast := Nat.getLast_digit_ne_zero 10 h
  obtain ⟨ds, d, hds⟩ : ∃ ds d, Nat.digits 10 n = ds ++ [d] :=
    ⟨_, _, (List.dropLast_append_getLast hne).symm⟩
  have hd : d < 10 := Nat.digits_lt_base (by norm_num : 1 < 10) (by rw [hds]; simp)
  have hd0 : d ≠ 0 := by
    simpa [hds] using hlast
  refine ⟨digitChar d, ds.reverse.map digitChar, ?_, by simp, ?_⟩
  · simp [natText, h, hds]
  · intro hz
    have := congrArg digitVal hz
    rw [digitVal_digitChar hd, digitVal_digitChar (by norm_num)] at this
    exact hd0 this

/-! ## Lines of a binary file -/

def newline : Byte := ⟨10, by decide⟩

/-- `for raw_line in file`: chunks that end in `\n`, except possibly the last. -/
def splitLines : Bytes → List Bytes
  | [] => []
  | b :: rest =>
    if b = newline then [b] :: splitLines rest
    else
      match splitLines rest with
      | [] => [[b]]
      | line :: lines => (b :: line) :: lines

/-- A line without newline followed by `\n` is split off first. -/
theorem splitLines_line (line rest : Bytes) (h : newline ∉ line) :
    splitLines (line ++ newline :: rest) = (line ++ [newline]) :: splitLines rest := by
  induction line with
  | nil => simp [splitLines]
  | cons b line ih =>
    have hb : b ≠ newline := fun hb => h (by simp [hb])
    have hline : newline ∉ line := fun hl => h (by simp [hl])
    simp [splitLines, hb, ih hline]

theorem splitLines_flatten (bytes : Bytes) : (splitLines bytes).flatten = bytes := by
  induction bytes with
  | nil => rfl
  | cons b rest ih =>
    unfold splitLines
    split
    · simp [ih]
    · cases hl : splitLines rest with
      | nil => rw [hl] at ih; simpa using ih
      | cons line lines => rw [hl] at ih; simpa using ih

/-- The journal's byte form: every record followed by its terminator. -/
def joinLines (lines : List Bytes) : Bytes := (lines.map (· ++ [newline])).flatten

theorem joinLines_append (a b : List Bytes) : joinLines (a ++ b) = joinLines a ++ joinLines b := by
  simp [joinLines]

/-- Appending whole lines to a file of whole lines only adds lines at its end. -/
theorem splitLines_joinLines_append (lines : List Bytes) (rest : Bytes)
    (h : ∀ l ∈ lines, newline ∉ l) :
    splitLines (joinLines lines ++ rest) = lines.map (· ++ [newline]) ++ splitLines rest := by
  induction lines with
  | nil => simp [joinLines]
  | cons line lines ih =>
    have hstep : joinLines (line :: lines) ++ rest
        = line ++ newline :: (joinLines lines ++ rest) := by
      simp [joinLines]
    rw [hstep, splitLines_line _ _ (h line (by simp)), ih (fun l hl => h l (by simp [hl]))]
    simp

/-- A byte that ends no line belongs to the line behind it. -/
theorem splitLines_cons_of_ne {b : Byte} (h : b ≠ newline) (rest : Bytes) :
    splitLines (b :: rest) = (b :: (splitLines rest).headD []) :: (splitLines rest).tail := by
  rw [splitLines, if_neg h]
  cases splitLines rest <;> rfl

theorem splitLines_of_notMem {bytes : Bytes} (h : newline ∉ bytes) :
    splitLines bytes = if bytes = [] then [] else [bytes] := by
  induction bytes with
  | nil => rfl
  | cons b rest ih =>
    rw [List.mem_cons, not_or] at h
    rw [splitLines_cons_of_ne (Ne.symm h.1), ih h.2]
    cases rest <;> rfl

/-- The first lines of a file are the lines of their bytes. -/
theorem splitLines_take (bytes : Bytes) (k : Nat) :
    splitLines ((splitLines bytes).take k).flatten = (splitLines bytes).take k := by
  induction bytes generalizing k with
  | nil => simp [splitLines]
  | cons b rest ih =>
    cases k with
    | zero => simp [splitLines]
    | succ k =>
      by_cases hb : b = newline
      · have hline : ∀ bytes, splitLines (b :: bytes) = [b] :: splitLines bytes := fun bytes => by
          rw [splitLines, if_pos hb]
        rw [hline, List.take_succ_cons, List.flatten_cons, List.singleton_append, hline, ih k]
      · rw [splitLines_cons_of_ne hb, List.take_succ_cons, List.flatten_cons, List.cons_append,
          splitLines_cons_of_ne hb]
        cases hl : splitLines rest with
        | nil => simp [splitLines]
        | cons line lines =>
          have := ih (k + 1)
          rw [hl, List.take_succ_cons, List.flatten_cons] at this
          simp [this]

/-- A file of whole lines that is cut off keeps whole lines and the start of another one. -/
theorem exists_take_joinLines (bodies : List Bytes) (h : ∀ b ∈ bodies, newline ∉ b) (k : Nat) :
    ∃ n partialLine, (joinLines bodies).take k = joinLines (bodies.take n) ++ partialLine ∧
      newline ∉ partialLine ∧ ∀ m, n < m → m ≤ bodies.length →
        k < (joinLines (bodies.take m)).length := by
  induction bodies generalizing k with
  | nil => exact ⟨0, [], by simp [joinLines], List.not_mem_nil, fun m h h' => by simp at h'; omega⟩
  | cons b bodies ih =>
    have hstep (bs : List Bytes) : joinLines (b :: bs) = b ++ newline :: joinLines bs := by
      simp [joinLines]
    by_cases hk : k ≤ b.length
    · refine ⟨0, b.take k, ?_, fun hmem => h b (by simp) (List.mem_of_mem_take hmem), ?_⟩
      · rw [hstep, List.take_append_of_le_length hk]
        rfl
      · intro m hm _
        obtain ⟨m, rfl⟩ : ∃ m', m = m' + 1 := ⟨m - 1, by omega⟩
        rw [List.take_succ_cons, hstep, List.length_append, List.length_cons]
        omega
    · obtain ⟨j, rfl⟩ : ∃ j, k = b.length + 1 + j := ⟨k - (b.length + 1), by omega⟩
      obtain ⟨n, partialLine, htake, hpartial, hlong⟩ := ih (fun x hx => h x (by simp [hx])) j
      refine ⟨n + 1, partialLine, ?_, hpartial, ?_⟩
      · have hcut : (b ++ newline :: joinLines bodies).take (b.length + 1 + j)
            = b ++ newline :: (joinLines bodies).take j := by
          rw [Nat.add_assoc, List.take_length_add_append, Nat.add_comm 1 j, List.take_succ_cons]
        rw [hstep, hcut, htake, List.take_succ_cons, hstep]
        simp
      · intro m hm hle
        obtain ⟨m, rfl⟩ : ∃ m', m = m' + 1 := ⟨m - 1, by omega⟩
        have := hlong m (by omega) (by simpa using hle)
        rw [List.take_succ_cons, hstep, List.length_append, List.length_cons]
        omega

end Py
