import Traaitt.Library.Leb128
import Traaitt.Library.Except

/-! `StreamTools.cpp` on a memory stream: reading a number of bytes, which throws when the
stream ends first, and the varints of the binary serializers. `readVarint` into an unsigned
integer of `bits` bits refuses a group that would not fit and a zero last byte after the first,
and throws at the end of the stream, so what it reads is exactly a shortest form below
`2 ^ bits` (`readVarint_sound`, `readVarint_complete`). The stream is the list of bytes not
read yet. -/

namespace Common

open Leb128

/-- `read(in, data, size)`: `size` bytes, or the error of a stream that ends first. -/
def read (size : ℕ) (stream : List UInt8) : Except String (List UInt8 × List UInt8) :=
  if size ≤ stream.length then .ok (stream.take size, stream.drop size)
  else .error "Failed to read from IInputStream"

/-- `read<uint8_t>(in)`. -/
def readUInt8 : List UInt8 → Except String (UInt8 × List UInt8)
  | [] => .error "Failed to read from IInputStream"
  | value :: rest => .ok (value, rest)

/-- The loop of `readVarint` into a `bits`-bit unsigned integer, at group offset `shift` with
the value so far in `temp`. The checks keep `temp` below `2 ^ bits`, so the C++ integer never
wraps. -/
def readVarintLoop (bits : ℕ) : List UInt8 → ℕ → ℕ → Except String (ℕ × List UInt8)
  | [], _, _ => .error "Failed to read from IInputStream"
  | piece :: rest, shift, temp =>
    if bits - 7 ≤ shift ∧ 1 <<< (bits - shift) ≤ piece.toNat then
      .error "readVarint, value overflow"
    else
      let temp := temp ||| (piece &&& 0x7f).toNat <<< shift
      if piece &&& 0x80 = 0 then
        if piece = 0 ∧ shift ≠ 0 then .error "readVarint, invalid value representation"
        else .ok (temp, rest)
      else readVarintLoop bits rest (shift + 7) temp

/-- `readVarint(in, value)` for a `bits`-bit unsigned `value`. -/
def readVarint (bits : ℕ) (stream : List UInt8) : Except String (ℕ × List UInt8) :=
  readVarintLoop bits stream 0 0

/-- The loop of `writeVarint(out, value)`: while `value >= 0x80`, write its low byte with the
high bit set and shift right by seven. `rounds` counts down the rounds a value can take. -/
def writeVarint : ℕ → ℕ → List UInt8
  | 0, value => [UInt8.ofNat value]
  | rounds + 1, value =>
    if 0x80 ≤ value then UInt8.ofNat (value ||| 0x80) :: writeVarint rounds (value >>> 7)
    else [UInt8.ofNat value]

/-! ## Reading bytes -/

theorem read_append {bytes : List UInt8} {size : ℕ} (h : bytes.length = size)
    (rest : List UInt8) : read size (bytes ++ rest) = .ok (bytes, rest) := by
  rw [read, if_pos (by simp [h]), List.take_left' h, List.drop_left' h]

theorem read_eq_ok {size : ℕ} {stream bytes rest : List UInt8}
    (h : read size stream = .ok (bytes, rest)) : stream = bytes ++ rest ∧ bytes.length = size := by
  rw [read] at h
  split_ifs at h with hsize
  cases h
  exact ⟨(List.take_append_drop size stream).symm, by simp [hsize]⟩

/-! ## The writer -/

theorem ofNat_or_0x80 (value : ℕ) : UInt8.ofNat (value ||| 0x80) = UInt8.ofNat (value % 128 + 128) := by
  have key : ∀ x : Fin 256, x.val ||| 128 = x.val % 128 + 128 := by decide +kernel
  have hmod : (value ||| 0x80) % 2 ^ 8 = value % 128 + 128 := by
    rw [Nat.or_mod_two_pow, show (0x80 : ℕ) % 2 ^ 8 = 128 from rfl,
      key ⟨value % 2 ^ 8, Nat.mod_lt _ (by norm_num)⟩, Nat.mod_mod_of_dvd _ (by norm_num)]
  rw [← UInt8.toNat_inj, UInt8.toNat_ofNat', UInt8.toNat_ofNat', hmod,
    Nat.mod_eq_of_lt (show value % 128 + 128 < 2 ^ 8 by omega)]

theorem writeVarint_eq_encode {rounds value : ℕ} (h : value < 128 ^ (rounds + 1)) :
    writeVarint rounds value = encode value := by
  induction rounds generalizing value with
  | zero => rw [writeVarint, encode_of_lt (by simpa using h)]
  | succ rounds ih =>
    by_cases hv : 0x80 ≤ value
    · have hdiv : value / 128 < 128 ^ (rounds + 1) := by
        rw [Nat.div_lt_iff_lt_mul (by norm_num), ← pow_succ]
        exact h
      rw [writeVarint, if_pos hv, ofNat_or_0x80, Nat.shiftRight_eq_div_pow, ih hdiv,
        encode_of_le hv]
    · rw [writeVarint, if_neg hv, encode_of_lt (by omega)]

/-! ## The reader -/

variable {bits : ℕ}

theorem readVarintLoop_last {piece : UInt8} {shift : ℕ} (rest : List UInt8) (temp : ℕ)
    (hlast : piece.toNat < 128) (hover : bits - 7 ≤ shift → piece.toNat < 2 ^ (bits - shift))
    (hcanon : shift ≠ 0 → piece ≠ 0) :
    readVarintLoop bits (piece :: rest) shift temp =
      .ok (temp ||| (piece &&& 0x7f).toNat <<< shift, rest) := by
  have hover' : ¬(bits - 7 ≤ shift ∧ 1 <<< (bits - shift) ≤ piece.toNat) := by
    rintro ⟨hle, hpow⟩
    rw [Nat.one_shiftLeft] at hpow
    exact absurd (hover hle) (Nat.not_lt.2 hpow)
  have hcanon' : ¬(piece = 0 ∧ shift ≠ 0) := fun ⟨h0, hs⟩ => hcanon hs h0
  rw [readVarintLoop, if_neg hover', if_pos ((and_0x80_eq_zero piece).2 hlast), if_neg hcanon']

theorem readVarintLoop_cont {piece : UInt8} {shift : ℕ} (rest : List UInt8) (temp : ℕ)
    (hcont : 128 ≤ piece.toNat) (hshift : shift + 7 < bits) :
    readVarintLoop bits (piece :: rest) shift temp =
      readVarintLoop bits rest (shift + 7) (temp ||| (piece &&& 0x7f).toNat <<< shift) := by
  have hover : ¬(bits - 7 ≤ shift ∧ 1 <<< (bits - shift) ≤ piece.toNat) := by omega
  have hmore : ¬(piece &&& 0x80 = 0) := by
    rw [and_0x80_eq_zero]
    omega
  rw [readVarintLoop, if_neg hover, if_neg hmore]

/-- A group or-ed in above the bits read so far adds to them. -/
theorem or_group_eq_add {temp shift : ℕ} (piece : UInt8) (htemp : temp < 2 ^ shift) :
    temp ||| (piece &&& 0x7f).toNat <<< shift = temp + piece.toNat % 128 * 2 ^ shift := by
  rw [toNat_and_0x7f, Nat.shiftLeft_eq, Nat.or_comm, Nat.mul_comm,
    ← Nat.two_pow_add_eq_or_of_lt htemp]
  ring

/-- The reader reads the shortest form back, whatever follows it: at offset `shift` with the
bits below it in `temp`, the groups of `m` land above them. -/
theorem readVarintLoop_encode (rest : List UInt8) (m : ℕ) :
    ∀ {shift temp : ℕ}, temp < 2 ^ shift → m * 2 ^ shift < 2 ^ bits → (shift ≠ 0 → m ≠ 0) →
      readVarintLoop bits (encode m ++ rest) shift temp = .ok (temp + m * 2 ^ shift, rest) := by
  induction m using Nat.strongRecOn with
  | ind m ih =>
    intro shift temp htemp hfit hzero
    -- a group that is not zero fits only below offset `bits`
    have hshift : shift ≤ bits := by
      by_contra hbig
      have : 2 ^ bits ≤ m * 2 ^ shift :=
        le_trans (Nat.pow_le_pow_right (by norm_num) (by omega))
          (Nat.le_mul_of_pos_left _ (Nat.pos_of_ne_zero (hzero (by omega))))
      omega
    have hsplit : 2 ^ bits = 2 ^ (bits - shift) * 2 ^ shift := by
      rw [← pow_add, Nat.sub_add_cancel hshift]
    by_cases hm : m < 128
    · -- the last byte
      have hbyte : (UInt8.ofNat m).toNat = m := by
        rw [UInt8.toNat_ofNat', Nat.mod_eq_of_lt (by omega)]
      rw [encode_of_lt hm, List.singleton_append,
        readVarintLoop_last rest temp (by rw [hbyte]; exact hm)
          (fun _ => by rw [hbyte]; exact Nat.lt_of_mul_lt_mul_right (hsplit ▸ hfit))
          (fun hs h0 => hzero hs (by simpa [hbyte] using congrArg UInt8.toNat h0)),
        or_group_eq_add _ htemp, hbyte, Nat.mod_eq_of_lt hm]
    · -- a byte with the high bit, then the groups above
      have hbyte : (UInt8.ofNat (m % 128 + 128)).toNat = m % 128 + 128 := by
        rw [UInt8.toNat_ofNat', Nat.mod_eq_of_lt (show m % 128 + 128 < 2 ^ 8 by omega)]
      have hpow7 : 2 ^ (shift + 7) = 128 * 2 ^ shift := by rw [pow_add]; ring
      have hshift7 : shift + 7 < bits := by
        by_contra hbig
        have : 2 ^ bits ≤ 128 * 2 ^ shift := by
          rw [← hpow7]; exact Nat.pow_le_pow_right (by norm_num) (by omega)
        have : 128 * 2 ^ shift ≤ m * 2 ^ shift := Nat.mul_le_mul_right _ (by omega)
        omega
      have hmod := Nat.mod_lt m (show 0 < 128 by norm_num)
      have htemp' : temp + m % 128 * 2 ^ shift < 2 ^ (shift + 7) := by
        rw [hpow7]
        nlinarith
      have hfit' : m / 128 * 2 ^ (shift + 7) < 2 ^ bits := by
        rw [hpow7]
        have : m / 128 * 128 ≤ m := Nat.div_mul_le_self m 128
        nlinarith
      rw [encode_of_le (by omega), List.cons_append,
        readVarintLoop_cont _ temp (by rw [hbyte]; omega) hshift7,
        or_group_eq_add _ htemp, hbyte, show (m % 128 + 128) % 128 = m % 128 by omega,
        ih (m / 128) (by omega) htemp' hfit' (fun _ => by omega), hpow7]
      congr 2
      have := Nat.div_add_mod m 128
      nlinarith

/-- `readVarint` reads every value below `2 ^ bits` back from its shortest form, whatever
follows it. -/
theorem readVarint_complete {m : ℕ} (hm : m < 2 ^ bits) (rest : List UInt8) :
    readVarint bits (encode m ++ rest) = .ok (m, rest) := by
  rw [readVarint, readVarintLoop_encode rest m (by norm_num) (by simpa using hm)
    (fun h => absurd rfl h)]
  simp

/-- What the loop accepts from offset `shift` is whole groups of a shortest form, and it
returns their value above `temp`, below `2 ^ bits`. -/
theorem readVarintLoop_sound (bytes : List UInt8) :
    ∀ {shift temp value : ℕ} {rest : List UInt8}, temp < 2 ^ shift → shift < bits →
      readVarintLoop bits bytes shift temp = .ok (value, rest) →
      ∃ init last, bytes = init ++ last :: rest ∧ (∀ b ∈ init, 128 ≤ b.toNat) ∧
        last.toNat < 128 ∧ (shift ≠ 0 ∨ init ≠ [] → last ≠ 0) ∧
        value = temp + 2 ^ shift * Leb128.value (init ++ [last]) ∧ value < 2 ^ bits := by
  induction bytes with
  | nil => intro shift temp value rest _ _ h; cases h
  | cons piece bytes ih =>
    intro shift temp value rest htemp hshift h
    have hsplit : 2 ^ bits = 2 ^ (bits - shift) * 2 ^ shift := by
      rw [← pow_add, Nat.sub_add_cancel hshift.le]
    have hgroup := or_group_eq_add piece htemp
    rw [readVarintLoop] at h
    split_ifs at h with hover hlast hcanon
    · -- the last group
      cases h
      have hlast' : piece.toNat < 128 := (and_0x80_eq_zero piece).1 hlast
      refine ⟨[], piece, rfl, by simp, hlast', fun h => ?_, ?_, ?_⟩
      · exact fun h0 => hcanon ⟨h0, by simpa using h⟩
      · rw [hgroup, List.nil_append, value_cons, value_nil]
        ring
      · -- the overflow check keeps the last group below `2 ^ bits`
        rw [hgroup, hsplit, Nat.mod_eq_of_lt hlast']
        by_cases hle : bits - 7 ≤ shift
        · rw [Nat.one_shiftLeft] at hover
          have : piece.toNat + 1 ≤ 2 ^ (bits - shift) := Nat.lt_of_not_le fun h => hover ⟨hle, h⟩
          nlinarith
        · have : 2 ^ 7 ≤ 2 ^ (bits - shift) := Nat.pow_le_pow_right (by norm_num) (by omega)
          nlinarith
    · -- a group with the high bit: the rest of the varint follows
      have hcont : 128 ≤ piece.toNat := by
        by_contra hsmall
        exact hlast ((and_0x80_eq_zero piece).2 (by omega))
      have hshift7 : shift + 7 < bits := by
        by_contra hbig
        rw [Nat.one_shiftLeft] at hover
        exact hover ⟨by omega, le_trans (Nat.pow_le_pow_right (by norm_num) (by omega) :
          2 ^ (bits - shift) ≤ 2 ^ 7) hcont⟩
      have htemp' : temp ||| (piece &&& 0x7f).toNat <<< shift < 2 ^ (shift + 7) := by
        rw [hgroup, pow_add]
        have := Nat.mod_lt piece.toNat (show 0 < 128 by norm_num)
        nlinarith
      obtain ⟨init, last, hbytes, hinit, hlast', hcanon', hvalue, hbound⟩ := ih htemp' hshift7 h
      refine ⟨piece :: init, last, by rw [hbytes]; rfl, ?_, hlast',
        fun _ => hcanon' (Or.inl (by omega)), ?_, hbound⟩
      · intro b hb
        rcases List.mem_cons.1 hb with rfl | hb
        · exact hcont
        · exact hinit b hb
      · rw [hvalue, hgroup, List.cons_append, value_cons, pow_add]
        ring

theorem readVarint_sound {stream rest : List UInt8} {value : ℕ} (hbits : 0 < bits)
    (h : readVarint bits stream = .ok (value, rest)) :
    stream = encode value ++ rest ∧ value < 2 ^ bits := by
  obtain ⟨init, last, hstream, hinit, hlast, hcanon, hvalue, hbound⟩ :=
    readVarintLoop_sound stream (by norm_num) hbits h
  simp only [pow_zero, Nat.one_mul, Nat.zero_add] at hvalue
  refine ⟨?_, hbound⟩
  rw [hvalue, encode_value hinit hlast fun hne => hcanon (Or.inr hne), hstream,
    List.append_assoc, List.singleton_append]

end Common
