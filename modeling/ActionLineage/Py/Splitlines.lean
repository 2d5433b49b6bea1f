import ActionLineage.Py.Str

/-!
# `bytes.splitlines`

Unlike the iteration over a binary file (`splitLines`), `bytes.splitlines()` also ends a line at
`\r`, takes `\r\n` for one end, and leaves the ends out. So bytes that are written behind a line
without an end join that line: `splitlines_append` needs the end, and without it the number of
lines stays as it was (`length_splitlines_append`).
-/

namespace Py

def carriageReturn : Byte := ⟨13, by decide⟩

def isLineBreak (b : Byte) : Bool := b == newline || b == carriageReturn

/-- `data.splitlines()`. -/
def splitlines : Bytes → List Bytes
  | [] => []
  | [b] => if isLineBreak b then [[]] else [[b]]
  | b :: c :: rest =>
    if b = carriageReturn ∧ c = newline then [] :: splitlines rest
    else if isLineBreak b then [] :: splitlines (c :: rest)
    else
      match splitlines (c :: rest) with
      | [] => [[b]]
      | line :: lines => (b :: line) :: lines

/-- The bytes are empty or end with a line break. -/
def EndsLine (data : Bytes) : Prop := ∀ b, data.getLast? = some b → isLineBreak b = true

theorem endsLine_nil : EndsLine [] := fun b h => by cases h

theorem endsLine_cons_cons {b c : Byte} {rest : Bytes} :
    EndsLine (b :: c :: rest) ↔ EndsLine (c :: rest) := by
  simp only [EndsLine, List.getLast?_cons_cons]

theorem isLineBreak_newline : isLineBreak newline = true := by decide

theorem splitlines_ne_nil {b : Byte} {data : Bytes} : splitlines (b :: data) ≠ [] := by
  cases data with
  | nil =>
    rw [splitlines]
    split <;> exact List.cons_ne_nil _ _
  | cons c rest =>
    rw [splitlines]
    split
    · exact List.cons_ne_nil _ _
    split
    · exact List.cons_ne_nil _ _
    · split <;> exact List.cons_ne_nil _ _

/-- A byte that ends no line belongs to the line behind it. -/
theorem splitlines_cons_of_not {b : Byte} (h : isLineBreak b = false) (data : Bytes) :
    splitlines (b :: data) = (b :: (splitlines data).headD []) :: (splitlines data).tail := by
  cases data with
  | nil => simp [splitlines, h]
  | cons c rest =>
    have hreturn : ¬ (b = carriageReturn ∧ c = newline) := by
      rintro ⟨rfl, -⟩
      exact absurd h (by decide)
    rw [splitlines, if_neg hreturn, h]
    cases splitlines (c :: rest) <;> rfl

/-- One line with its end. -/
theorem splitlines_line {line : Bytes} (h : ∀ b ∈ line, isLineBreak b = false) :
    splitlines (line ++ [newline]) = [line] := by
  induction line with
  | nil => rfl
  | cons b line ih =>
    rw [List.cons_append, splitlines_cons_of_not (h b (by simp)),
      ih fun c hc => h c (List.mem_cons_of_mem _ hc)]
    rfl

theorem splitlines_return_newline (data : Bytes) :
    splitlines (carriageReturn :: newline :: data) = [] :: splitlines data := by
  rw [splitlines, if_pos ⟨rfl, rfl⟩]

/-- A line break that is not the first half of `\r\n`. -/
theorem splitlines_break {b : Byte} (h : isLineBreak b = true) {data : Bytes}
    (hpair : ¬ (b = carriageReturn ∧ data.head? = some newline)) :
    splitlines (b :: data) = [] :: splitlines data := by
  cases data with
  | nil => simp [splitlines, h]
  | cons c rest =>
    have hpair : ¬ (b = carriageReturn ∧ c = newline) := by simpa using hpair
    rw [splitlines, if_neg hpair, if_pos h]

theorem EndsLine.tail {b : Byte} {data : Bytes} (h : EndsLine (b :: data)) : EndsLine data := by
  cases data with
  | nil => exact endsLine_nil
  | cons c rest => exact endsLine_cons_cons.mp h

/-- Behind a line break the lines are split on their own, unless the break is half of `\r\n`. -/
theorem splitlines_append {data : Bytes} {c : Byte} (rest : Bytes) (hdata : EndsLine data)
    (hc : c ≠ newline) :
    splitlines (data ++ c :: rest) = splitlines data ++ splitlines (c :: rest) := by
  induction data using splitlines.induct with
  | case1 => rfl
  | case2 b hb =>
    rw [List.singleton_append, splitlines_break hb (by simp [hc]), splitlines_break hb (by simp)]
    rfl
  | case3 b hb => exact absurd (hdata b rfl) hb
  | case4 b d tail h ih =>
    obtain ⟨rfl, rfl⟩ := h
    rw [List.cons_append, List.cons_append, splitlines_return_newline, splitlines_return_newline,
      ih hdata.tail.tail, List.cons_append]
  | case5 b d tail h hb ih =>
    rw [List.cons_append, splitlines_break hb (by simpa using h), splitlines_break hb (by simpa using h),
      ih hdata.tail, List.cons_append]
  | case6 b d tail h hb hnil ih => exact absurd hnil splitlines_ne_nil
  | case7 b d tail h hb line lines hlines ih =>
    have hb : isLineBreak b = false := by simpa using hb
    rw [List.cons_append, splitlines_cons_of_not hb, splitlines_cons_of_not hb, ih hdata.tail, hlines]
    rfl

/-- Bytes without a line break, behind a line without an end, join that line. -/
theorem length_splitlines_append {data : Bytes} (hdata : ¬ EndsLine data) {line : Bytes}
    (hline : ∀ b ∈ line, isLineBreak b = false) :
    (splitlines (data ++ line ++ [newline])).length = (splitlines data).length := by
  induction data using splitlines.induct with
  | case1 => exact absurd endsLine_nil hdata
  | case2 b hb =>
    refine absurd (fun c hc => ?_) hdata
    obtain rfl : b = c := Option.some.inj hc
    exact hb
  | case3 b hb =>
    have hb : isLineBreak b = false := by simpa using hb
    have hall : ∀ c ∈ b :: line, isLineBreak c = false := by
      intro c hc
      rcases List.mem_cons.mp hc with rfl | hc
      · exact hb
      · exact hline c hc
    rw [List.singleton_append, splitlines_line hall, splitlines_cons_of_not hb]
    rfl
  | case4 b d tail h ih =>
    obtain ⟨rfl, rfl⟩ := h
    have htail : ¬ EndsLine tail := by
      intro htail
      refine hdata fun c hc => ?_
      cases tail with
      | nil =>
        obtain rfl : newline = c := Option.some.inj hc
        exact isLineBreak_newline
      | cons e tail => exact htail c (by simpa using hc)
    simp only [List.cons_append, splitlines_return_newline, List.length_cons]
    rw [ih htail]
  | case5 b d tail h hb ih =>
    have htail : ¬ EndsLine (d :: tail) := fun htail => hdata (endsLine_cons_cons.mpr htail)
    rw [List.cons_append, List.cons_append, splitlines_break hb (by simpa using h),
      splitlines_break hb (by simpa using h), List.length_cons, List.length_cons, ih htail]
  | case6 b d tail h hb hnil ih => exact absurd hnil splitlines_ne_nil
  | case7 b d tail h hb line' lines hlines ih =>
    have htail : ¬ EndsLine (d :: tail) := fun htail => hdata (endsLine_cons_cons.mpr htail)
    have hb : isLineBreak b = false := by simpa using hb
    have hcount := ih htail
    rw [hlines] at hcount
    rw [List.cons_append, List.cons_append, splitlines_cons_of_not hb, splitlines_cons_of_not hb, hlines]
    simp only [List.length_cons, List.length_tail] at hcount ⊢
    omega

end Py
