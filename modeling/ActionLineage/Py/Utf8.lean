import ActionLineage.Py.Str

/-!
# UTF-8 and the other encodings `json.loads` detects

`str.encode("utf-8")` is strict: a lone surrogate has no encoding (`utf8Encode` is `none`).
`json.loads(bytes)` decodes with the `surrogatepass` handler after `json.detect_encoding`, so the
decoder is more liberal than the encoder: it reads back everything the encoder wrote
(`utf8Decode_utf8Bytes`) and also the three-byte forms of surrogates the encoder refuses.
-/

namespace Py

/-! ## Encoding -/

/-- The UTF-8 octets of one code point. -/
def utf8Char (c : CodePoint) : Bytes :=
  if c.val < 0x80 then [⟨c.val % 256, by omega⟩]
  else if c.val < 0x800 then
    [⟨0xC0 + c.val / 64 % 32, by omega⟩, ⟨0x80 + c.val % 64, by omega⟩]
  else if c.val < 0x10000 then
    [⟨0xE0 + c.val / 4096 % 16, by omega⟩, ⟨0x80 + c.val / 64 % 64, by omega⟩,
      ⟨0x80 + c.val % 64, by omega⟩]
  else
    [⟨0xF0 + c.val / 262144 % 8, by omega⟩, ⟨0x80 + c.val / 4096 % 64, by omega⟩,
      ⟨0x80 + c.val / 64 % 64, by omega⟩, ⟨0x80 + c.val % 64, by omega⟩]

def utf8Bytes (s : Str) : Bytes := s.flatMap utf8Char

/-- `s.encode("utf-8")`; `none` is `UnicodeEncodeError`. -/
def utf8Encode (s : Str) : Option Bytes :=
  if SurrogateFree s then some (utf8Bytes s) else none

theorem utf8Encode_eq_some {s : Str} {b : Bytes} :
    utf8Encode s = some b ↔ SurrogateFree s ∧ b = utf8Bytes s := by
  unfold utf8Encode
  split
  · rename_i h
    simp [h, eq_comm]
  · rename_i h
    simp [h]

theorem utf8Encode_eq_none {s : Str} : utf8Encode s = none ↔ ¬ SurrogateFree s := by
  simp [utf8Encode]

@[simp] theorem utf8Bytes_nil : utf8Bytes [] = [] := rfl

@[simp] theorem utf8Bytes_cons (c : CodePoint) (s : Str) :
    utf8Bytes (c :: s) = utf8Char c ++ utf8Bytes s := rfl

theorem utf8Char_ascii {c : CodePoint} (h : c.val < 0x80) :
    utf8Char c = [⟨c.val, by omega⟩] := by
  rw [utf8Char, if_pos h]
  exact congrArg (fun b => [b]) (Fin.ext (Nat.mod_eq_of_lt (by omega)))

/-- Encoding keeps the order of ASCII text. -/
theorem utf8Bytes_lt_of_ascii {s t : Str} (hs : ∀ c ∈ s, c.val < 0x80) (ht : ∀ c ∈ t, c.val < 0x80) :
    utf8Bytes s < utf8Bytes t ↔ s < t := by
  induction s generalizing t with
  | nil =>
    cases t with
    | nil => simp
    | cons d t => simp [utf8Char_ascii (ht d (by simp))]
  | cons c s ih =>
    cases t with
    | nil => simp
    | cons d t =>
      have hc := hs c (by simp)
      have hd := ht d (by simp)
      have ih := ih (fun x hx => hs x (by simp [hx])) (t := t) fun x hx => ht x (by simp [hx])
      rw [utf8Bytes_cons, utf8Bytes_cons, utf8Char_ascii hc, utf8Char_ascii hd,
        List.singleton_append, List.singleton_append, List.cons_lt_cons_iff,
        List.cons_lt_cons_iff, ih]
      simp only [Fin.lt_def, Fin.ext_iff]

/-- A character that is no control character encodes to octets that are none. -/
theorem printed_of_mem_utf8Char {c : CodePoint} (h : 32 ≤ c.val) : ∀ b ∈ utf8Char c, 32 ≤ b.val := by
  unfold utf8Char
  split
  · simp; omega
  split
  · simp; omega
  split
  · simp; omega
  · simp; omega

theorem printed_of_mem_utf8Bytes {s : Str} (h : ∀ c ∈ s, 32 ≤ c.val) :
    ∀ b ∈ utf8Bytes s, 32 ≤ b.val := by
  intro b hb
  obtain ⟨c, hc, hb⟩ := List.mem_flatMap.mp hb
  exact printed_of_mem_utf8Char (h c hc) b hb

/-! ## Decoding (`surrogatepass`) -/

def isCont (b : Byte) : Bool := 0x80 ≤ b.val && b.val < 0xC0

theorem isCont_mk {n : Nat} (h : n < 256) (lo : 0x80 ≤ n) (hi : n < 0xC0) :
    isCont ⟨n, h⟩ = true := by
  simp [isCont, lo, hi]

/-- The two-, three- and four-octet forms, as the code point they stand for. -/
def utf8Two (b0 b1 : Byte) : Option CodePoint :=
  if 0xC2 ≤ b0.val ∧ b0.val < 0xE0 ∧ isCont b1 then
    some ⟨(b0.val - 0xC0) % 32 * 64 + b1.val % 64, by omega⟩
  else none

@[inherit_doc utf8Two] def utf8Three (b0 b1 b2 : Byte) : Option CodePoint :=
  if 0xE0 ≤ b0.val ∧ b0.val < 0xF0 ∧ isCont b1 ∧ isCont b2 ∧ (b0.val ≠ 0xE0 ∨ 0xA0 ≤ b1.val) then
    some ⟨(b0.val - 0xE0) % 16 * 4096 + b1.val % 64 * 64 + b2.val % 64, by omega⟩
  else none

@[inherit_doc utf8Two] def utf8Four (b0 b1 b2 b3 : Byte) : Option CodePoint :=
  let n := (b0.val - 0xF0) * 262144 + b1.val % 64 * 4096 + b2.val % 64 * 64 + b3.val % 64
  if h : (0xF0 ≤ b0.val ∧ isCont b1 ∧ isCont b2 ∧ isCont b3 ∧ 0x10000 ≤ n) ∧ n < 0x110000 then
    some ⟨n, h.2⟩
  else none

/-- `bytes.decode("utf-8", "surrogatepass")`; `none` is `UnicodeDecodeError`. -/
def utf8Decode : Bytes → Option Str
  | [] => some []
  | b0 :: rest =>
    if b0.val < 0x80 then (utf8Decode rest).map (⟨b0.val, byte_lt b0⟩ :: ·)
    else match rest with
      | [] => none
      | b1 :: rest =>
        match utf8Two b0 b1 with
        | some c => (utf8Decode rest).map (c :: ·)
        | none => match rest with
          | [] => none
          | b2 :: rest =>
            match utf8Three b0 b1 b2 with
            | some c => (utf8Decode rest).map (c :: ·)
            | none => match rest with
              | [] => none
              | b3 :: rest =>
                match utf8Four b0 b1 b2 b3 with
                | some c => (utf8Decode rest).map (c :: ·)
                | none => none

/-- One encoded code point is decoded first, whatever follows it. -/
theorem utf8Decode_utf8Char (c : CodePoint) (rest : Bytes) :
    utf8Decode (utf8Char c ++ rest) = (utf8Decode rest).map (c :: ·) := by
  have hc := c.isLt
  unfold utf8Char
  split
  · -- one octet
    rename_i h
    have hb : c.val % 256 = c.val := by omega
    rw [List.singleton_append, utf8Decode.eq_def]
    simp only [hb]
    rw [if_pos h]
  split
  · -- two octets
    rename_i h1 h2
    have htwo : utf8Two ⟨0xC0 + c.val / 64 % 32, by omega⟩ ⟨0x80 + c.val % 64, by omega⟩
        = some c := by
      rw [utf8Two, if_pos ⟨by simp only; omega, by simp only; omega, isCont_mk _ (by omega) (by omega)⟩]
      exact congrArg some (Fin.ext (by simp only; omega))
    simp only [List.cons_append, List.nil_append]
    rw [utf8Decode.eq_def]
    simp only [htwo]
    rw [if_neg (by omega)]
  split
  · -- three octets
    rename_i h1 h2 h3
    have htwo : utf8Two ⟨0xE0 + c.val / 4096 % 16, by omega⟩ ⟨0x80 + c.val / 64 % 64, by omega⟩
        = none := by
      rw [utf8Two, if_neg (by simp only; omega)]
    have hthree : utf8Three ⟨0xE0 + c.val / 4096 % 16, by omega⟩
        ⟨0x80 + c.val / 64 % 64, by omega⟩ ⟨0x80 + c.val % 64, by omega⟩ = some c := by
      rw [utf8Three, if_pos ⟨by simp only; omega, by simp only; omega,
        isCont_mk _ (by omega) (by omega), isCont_mk _ (by omega) (by omega), by simp only; omega⟩]
      exact congrArg some (Fin.ext (by simp only; omega))
    simp only [List.cons_append, List.nil_append]
    rw [utf8Decode.eq_def]
    simp only [htwo, hthree]
    rw [if_neg (by omega)]
  · -- four octets
    rename_i h1 h2 h3
    have htwo : utf8Two ⟨0xF0 + c.val / 262144 % 8, by omega⟩ ⟨0x80 + c.val / 4096 % 64, by omega⟩
        = none := by
      rw [utf8Two, if_neg (by simp only; omega)]
    have hthree : utf8Three ⟨0xF0 + c.val / 262144 % 8, by omega⟩
        ⟨0x80 + c.val / 4096 % 64, by omega⟩ ⟨0x80 + c.val / 64 % 64, by omega⟩ = none := by
      rw [utf8Three, if_neg (by simp only; omega)]
    have hfour : utf8Four ⟨0xF0 + c.val / 262144 % 8, by omega⟩
        ⟨0x80 + c.val / 4096 % 64, by omega⟩ ⟨0x80 + c.val / 64 % 64, by omega⟩
        ⟨0x80 + c.val % 64, by omega⟩ = some c := by
      rw [utf8Four, dif_pos ⟨⟨by simp only; omega, isCont_mk _ (by omega) (by omega),
        isCont_mk _ (by omega) (by omega), isCont_mk _ (by omega) (by omega),
        by simp only; omega⟩, by simp only; omega⟩]
      exact congrArg some (Fin.ext (by simp only; omega))
    simp only [List.cons_append, List.nil_append]
    rw [utf8Decode.eq_def]
    simp only [htwo, hthree, hfour]
    rw [if_neg (by omega)]

/-- Decoding undoes encoding; surrogates included, thanks to `surrogatepass`. -/
theorem utf8Decode_utf8Bytes (s : Str) : utf8Decode (utf8Bytes s) = some s := by
  induction s with
  | nil => rfl
  | cons c s ih => rw [utf8Bytes_cons, utf8Decode_utf8Char, ih]; rfl

theorem utf8Bytes_injective : Function.Injective utf8Bytes := by
  intro a b h
  have := congrArg utf8Decode h
  rwa [utf8Decode_utf8Bytes, utf8Decode_utf8Bytes, Option.some_inj] at this

/-! ## UTF-16 and UTF-32, and the detection `json.loads` makes -/

inductive Encoding
  | utf8 | utf8sig | utf16be | utf16le | utf32be | utf32le | utf16 | utf32
deriving DecidableEq, Repr

/-- The 16-bit units of a byte string; `none` when a byte is left over. -/
def units16 (bigEndian : Bool) : Bytes → Option (List Nat)
  | [] => some []
  | [_] => none
  | a :: b :: rest =>
    (units16 bigEndian rest).map
      ((if bigEndian then a.val * 256 + b.val else b.val * 256 + a.val) :: ·)

/-- Joins surrogate pairs; a lone surrogate is passed through. -/
def joinUnits : List Nat → Str
  | [] => []
  | [u] => [⟨u % 0x10000, by omega⟩]
  | u :: v :: rest =>
    if 0xD800 ≤ u ∧ u ≤ 0xDBFF ∧ 0xDC00 ≤ v ∧ v ≤ 0xDFFF then
      ⟨0x10000 + (u - 0xD800) % 1024 * 1024 + (v - 0xDC00) % 1024, by omega⟩ :: joinUnits rest
    else ⟨u % 0x10000, by omega⟩ :: joinUnits (v :: rest)

def utf16Decode (bigEndian : Bool) (b : Bytes) : Option Str := (units16 bigEndian b).map joinUnits

def utf32Decode (bigEndian : Bool) : Bytes → Option Str
  | [] => some []
  | a :: b :: c :: d :: rest =>
    let n := if bigEndian then ((a.val * 256 + b.val) * 256 + c.val) * 256 + d.val
      else ((d.val * 256 + c.val) * 256 + b.val) * 256 + a.val
    if h : n < 0x110000 then (utf32Decode bigEndian rest).map (⟨n, h⟩ :: ·) else none
  | _ => none

/-- `json.detect_encoding`. -/
def detectEncoding (b : Bytes) : Encoding :=
  match b.map Fin.val with
  | 0x00 :: 0x00 :: 0xFE :: 0xFF :: _ => .utf32
  | 0xFF :: 0xFE :: 0x00 :: 0x00 :: _ => .utf32
  | 0xFE :: 0xFF :: _ => .utf16
  | 0xFF :: 0xFE :: _ => .utf16
  | 0xEF :: 0xBB :: 0xBF :: _ => .utf8sig
  | b0 :: b1 :: b2 :: b3 :: _ =>
    if b0 = 0 then (if b1 ≠ 0 then .utf16be else .utf32be)
    else if b1 = 0 then (if b2 ≠ 0 ∨ b3 ≠ 0 then .utf16le else .utf32le)
    else .utf8
  | [b0, b1] => if b0 = 0 then .utf16be else if b1 = 0 then .utf16le else .utf8
  | _ => .utf8

/-- `b.decode(encoding, "surrogatepass")`. A byte order mark picks the byte order and is dropped. -/
def decodeWith (b : Bytes) : Encoding → Option Str
  | .utf8 => utf8Decode b
  | .utf8sig => utf8Decode (b.drop 3)
  | .utf16be => utf16Decode true b
  | .utf16le => utf16Decode false b
  | .utf32be => utf32Decode true b
  | .utf32le => utf32Decode false b
  | .utf16 => utf16Decode (b.head?.map Fin.val == some 0xFE) (b.drop 2)
  | .utf32 => utf32Decode (b.head?.map Fin.val == some 0x00) (b.drop 4)

/-- How `json.loads` turns bytes into text. -/
def decodeJson (b : Bytes) : Option Str := decodeWith b (detectEncoding b)

/-- A document whose first two octets are ASCII and not NUL is read as UTF-8. -/
theorem decodeJson_ascii {b0 b1 : Byte} {rest : Bytes} (h0 : 0 < b0.val ∧ b0.val < 0x80)
    (h1 : 0 < b1.val) : decodeJson (b0 :: b1 :: rest) = utf8Decode (b0 :: b1 :: rest) := by
  have hdetect : detectEncoding (b0 :: b1 :: rest) = .utf8 := by
    unfold detectEncoding
    split <;> rename_i heq <;> simp only [List.map_cons, List.cons.injEq] at heq
    all_goals first
      | omega
      | (split <;> first | omega | (split <;> first | omega | rfl))
      | rfl
  rw [decodeJson, hdetect, decodeWith]

end Py
