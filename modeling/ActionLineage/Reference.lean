import ActionLineage.Domain.Events

/-!
# A reference platform

A computable `Platform`, so that the laws asked of one are known to be satisfiable and the model
can be run on concrete inputs. Digests are a parameter: `hexText` spells the bytes out and never
collides, `checksum` has the 64 digits of a SHA-256 digest. Timestamps are read in canonical form
only.
-/

namespace ActionLineage

open Py

theorem isHexChar_hexDigit (n : Nat) : isHexChar (hexDigit (n % 16)) = true := by
  have h : n % 16 < 16 := Nat.mod_lt _ (by omega)
  generalize n % 16 = d at h
  interval_cases d <;> decide

def hexByte (b : Byte) : Str := [hexDigit (b.val / 16 % 16), hexDigit (b.val % 16)]

/-- `bytes.hex()`. -/
def hexText (b : Bytes) : Str := b.flatMap hexByte

theorem hexText_hex (b : Bytes) : ∀ c ∈ hexText b, isHexChar c = true := by
  intro c hc
  obtain ⟨x, -, hc⟩ := List.mem_flatMap.mp hc
  simp only [hexByte, List.mem_cons, List.not_mem_nil, or_false] at hc
  rcases hc with rfl | rfl <;> exact isHexChar_hexDigit _

theorem hexDigit_injOn : ∀ a < 16, ∀ b < 16, hexDigit a = hexDigit b → a = b := by decide

theorem hexText_injective : Function.Injective hexText := by
  intro a b h
  induction a generalizing b with
  | nil =>
    cases b with
    | nil => rfl
    | cons y b => simp [hexText, hexByte] at h
  | cons x a ih =>
    cases b with
    | nil => simp [hexText, hexByte] at h
    | cons y b =>
      simp only [hexText, List.flatMap_cons, hexByte, List.cons_append, List.nil_append,
        List.cons.injEq] at h
      obtain ⟨hhi, hlo, htail⟩ := h
      have hx := x.isLt
      have hy := y.isLt
      have hhi := hexDigit_injOn _ (by omega) _ (by omega) hhi
      have hlo := hexDigit_injOn _ (by omega) _ (by omega) hlo
      have hxy : x = y := Fin.ext (by omega)
      rw [hxy, ih htail]

def hexPad : Nat → Nat → Str
  | 0, _ => []
  | k + 1, n => hexDigit (n / 16 ^ k % 16) :: hexPad k n

theorem hexPad_length (k n : Nat) : (hexPad k n).length = k := by
  induction k with
  | zero => rfl
  | succ k ih => simp [hexPad, ih]

theorem hexPad_hex (k n : Nat) : ∀ c ∈ hexPad k n, isHexChar c = true := by
  induction k with
  | zero => simp [hexPad]
  | succ k ih =>
    intro c hc
    rcases List.mem_cons.mp hc with rfl | hc
    · exact isHexChar_hexDigit _
    · exact ih c hc

/-- 256 bits of the bytes read as a number. -/
def checksum (b : Bytes) : Str := hexPad 64 (b.foldl (fun n x => 257 * n + x.val + 1) 0)

/-! ## Canonical timestamps -/

/-- The datetime a canonical text spells. -/
def parseIsoZ (s : Str) : Option DateTime :=
  let number (start length : Nat) := readNat ((s.drop start).take length)
  let year := number 0 4
  let month := number 5 2
  let day := number 8 2
  let hour := number 11 2
  let minute := number 14 2
  let second := number 17 2
  let micro := if s.length = 27 then number 20 6 else 0
  if h : (1 ≤ year ∧ year ≤ 9999) ∧ (1 ≤ month ∧ month ≤ 12) ∧
      (1 ≤ day ∧ day ≤ daysInMonth year month) ∧ hour < 24 ∧ minute < 60 ∧ second < 60 ∧
      micro < 1000000 then
    let d : DateTime :=
      { year, month, day, hour, minute, second, micro
        year_pos := h.1.1, year_le := h.1.2, month_pos := h.2.1.1, month_le := h.2.1.2
        day_pos := h.2.2.1.1, day_le := h.2.2.1.2, hour_lt := h.2.2.2.1
        minute_lt := h.2.2.2.2.1, second_lt := h.2.2.2.2.2.1, micro_lt := h.2.2.2.2.2.2 }
    if d.isoZ = s then some d else none
  else none

theorem parseIsoZ_isoZ (d : DateTime) : parseIsoZ d.isoZ = some d := by
  have hday : d.day < 10 ^ 2 := by
    have := d.day_le
    have := DateTime.daysInMonth_le d.year d.month
    omega
  have year : readNat ((d.isoZ.drop 0).take 4) = d.year :=
    DateTime.readNat_pad (k := 4) (by have := d.year_le; omega)
  have month : readNat ((d.isoZ.drop 5).take 2) = d.month :=
    DateTime.readNat_pad (k := 2) (by have := d.month_le; omega)
  have day : readNat ((d.isoZ.drop 8).take 2) = d.day := DateTime.readNat_pad (k := 2) hday
  have hour : readNat ((d.isoZ.drop 11).take 2) = d.hour :=
    DateTime.readNat_pad (k := 2) (by have := d.hour_lt; omega)
  have minute : readNat ((d.isoZ.drop 14).take 2) = d.minute :=
    DateTime.readNat_pad (k := 2) (by have := d.minute_lt; omega)
  have second : readNat ((d.isoZ.drop 17).take 2) = d.second :=
    DateTime.readNat_pad (k := 2) (by have := d.second_lt; omega)
  have micro : (if d.isoZ.length = 27 then readNat ((d.isoZ.drop 20).take 6) else 0) = d.micro := by
    by_cases h : d.micro = 0
    · have hlen : d.isoZ.length = 20 := by
        rw [DateTime.isoZ, h]
        rfl
      rw [hlen, h]
      rfl
    · have htext : d.isoZ = d.secondText ++ (cp '.' :: DateTime.pad 6 d.micro ++ [cp 'Z']) := by
        rw [DateTime.isoZ, DateTime.fractionText, if_neg h]
      have hlen : d.isoZ.length = 27 := by
        rw [htext]
        rfl
      rw [hlen, if_pos rfl, htext]
      exact DateTime.readNat_pad (k := 6) d.micro_lt
  have hvalid : (1 ≤ d.year ∧ d.year ≤ 9999) ∧ (1 ≤ d.month ∧ d.month ≤ 12) ∧
      (1 ≤ d.day ∧ d.day ≤ daysInMonth d.year d.month) ∧ d.hour < 24 ∧ d.minute < 60 ∧
      d.second < 60 ∧ d.micro < 1000000 :=
    ⟨⟨d.year_pos, d.year_le⟩, ⟨d.month_pos, d.month_le⟩, ⟨d.day_pos, d.day_le⟩, d.hour_lt,
      d.minute_lt, d.second_lt, d.micro_lt⟩
  simp only [parseIsoZ, year, month, day, hour, minute, second, micro]
  rw [dif_pos hvalid, if_pos trivial]

/-! ## The platform -/

/-- `datetime.fromisoformat` of canonical text with `+00:00` for `Z`. -/
def parseIsoOffset (s : Str) : Option (DateTime × Option Int) :=
  if lit "+00:00" <:+ s then
    (parseIsoZ (s.take (s.length - 6) ++ [cp 'Z'])).map fun d => (d, some 0)
  else none

theorem parseIsoOffset_isoformat (d : DateTime) : parseIsoOffset d.isoformat = some (d, some 0) := by
  have htext : d.isoformat = (d.secondText ++ DateTime.fractionText d.micro) ++ lit "+00:00" := by
    rw [DateTime.isoformat, List.append_assoc]
  have hlength : (lit "+00:00").length = 6 := rfl
  have hstart : d.isoformat.take (d.isoformat.length - 6) ++ [cp 'Z'] = d.isoZ := by
    rw [htext, List.length_append, hlength, Nat.add_sub_cancel, List.take_left, DateTime.isoZ,
      List.append_assoc]
  rw [parseIsoOffset, if_pos ⟨_, htext.symm⟩, hstart, parseIsoZ_isoZ]
  rfl

def Platform.reference (digest : Bytes → Str) (hdigest : ∀ b, ∀ c ∈ digest b, isHexChar c = true) :
    Platform where
  sha256Hex := digest
  sha256Hex_hex := hdigest
  hmacSha256Hex key b := hexText (key ++ b)
  hmacSha256Hex_hex _ _ := hexText_hex _
  isWordBeyondAscii _ := false
  isPrintableBeyondAscii _ := false
  decimalBeyondAscii _ := none
  reSearch pattern text := if pattern <:+: text then .found else .absent
  lower s := s.map asciiLower
  lower_ascii _ _ := rfl
  strOk s := s.all fun c => !isSurrogate c
  strOk_of_surrogateFree s h := by
    rw [List.all_eq_true]
    intro c hc
    rw [h c hc]
    rfl
  parseInt
    | .int i => some i
    | _ => none
  parseInt_int _ := rfl
  parseInt_dict _ := rfl
  parseDatetime
    | .str s => (parseIsoZ s).map fun d => (d, some 0)
    | _ => none
  parseDatetime_isoZ d := by simp only [parseIsoZ_isoZ, Option.map_some]
  fromIsoFormat := parseIsoOffset
  fromIsoFormat_isoformat := parseIsoOffset_isoformat
  localOffset _ := 0
  dumpPayload := .ok
  dumpPayload_eq _ _ := rfl
  dumpPayload_wellFormed _ _ hw h := by
    obtain rfl := Except.ok.inj h
    exact hw
  recursionLimit := 1000
  recursionLimit_ge := by decide

/-- The reference platform with digests that never collide. -/
def Platform.plain : Platform := .reference hexText hexText_hex

theorem Platform.plain_injective : Function.Injective Platform.plain.sha256Hex := hexText_injective

/-- The reference platform with digests of the right length. -/
def Platform.checksummed : Platform := .reference checksum fun _ => hexPad_hex _ _

/-! ## Sample events -/

/-- The text, or a blank for the empty one. -/
def sampleText (s : String) : Text :=
  if h : lit s ≠ [] then ⟨lit s, h⟩ else ⟨[cp ' '], List.cons_ne_nil _ _⟩

def sampleTime : DateTime where
  year := 2026
  month := 1
  day := 2
  hour := 3
  minute := 4
  second := 5
  micro := 0
  year_pos := by decide
  year_le := by decide
  month_pos := by decide
  month_le := by decide
  day_pos := by decide
  day_le := by decide
  hour_lt := by decide
  minute_lt := by decide
  second_lt := by decide
  micro_lt := by decide

theorem degraded_documented : (sampleText "recorder.degraded").val ∈ documentedRootEventTypes := by
  decide

/-- A root event with the given id, sequence and payload. -/
def sampleEvent (id : Text) (sequence : Nat) (payload : Payload) : EventEnvelope where
  eventId := id
  eventType := sampleText "recorder.degraded"
  occurredAt := sampleTime
  observedAt := sampleTime
  source := ⟨sampleText "c", sampleText "i", sampleText "1"⟩
  correlation := ⟨sampleText "t", sampleText "r", none, none⟩
  causality := ⟨id, sequence, none⟩
  principal := ⟨sampleText "p", .agent, none, none, none⟩
  classification := ⟨.unknown, .unknown⟩
  payload := payload
  integrity := .default
  causalityOk _ := ⟨degraded_documented, rfl⟩

def emptyPayload : Payload := (requireJsonPayload []).get (by decide)

/-- The payload, or the empty one for items that are not JSON. -/
def samplePayload (kvs : Obj) : Payload := (requireJsonPayload kvs).getD emptyPayload

end ActionLineage
