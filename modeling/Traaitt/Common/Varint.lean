import Traaitt.Common.StreamTools

/-! `Varint.h`: `write_varint` and `read_varint` on a `uint64_t`, as `encode_addr` and
`decode_addr` use them. The writer is the shortest form of `Leb128`. The reader checks
overflow at the last group and refuses a zero last byte after the first, so what it reads in
full is a shortest form; but when the input ends inside a varint it returns the count of bytes
read so far, as it does after a complete one, so a caller that only asks for a positive count
takes a cut-off varint for a whole one. -/

namespace Tools

open Leb128

/-- The loop of `write_varint`: while `i >= 0x80`, write the low seven bits with the high bit
set and shift right by seven; then write what is left. A `uint64_t` takes at most nine rounds,
which `rounds` counts down. -/
def writeVarint : ℕ → ℕ → List UInt8
  | 0, i => [UInt8.ofNat i]
  | rounds + 1, i =>
    if 0x80 ≤ i then ((UInt8.ofNat i &&& 0x7f) ||| 0x80) :: writeVarint rounds (i >>> 7)
    else [UInt8.ofNat i]

/-- `get_varint_data` of a `uint64_t`. -/
def getVarintData (v : UInt64) : List UInt8 :=
  writeVarint 9 v.toNat

/-- The loop of `read_varint` with `bits = 64`, at group offset `shift`, after `read` bytes,
with the value so far in `i`. It returns the function's `int` result (the count of bytes read,
`-1` on overflow, `-2` on a non-canonical representation) and `i`. -/
def readVarintLoop : List UInt8 → ℕ → ℤ → UInt64 → ℤ × UInt64
  | [], _, read, i => (read, i)
  | byte :: rest, shift, read, i =>
    if 64 ≤ shift + 7 ∧ 1 <<< (64 - shift) ≤ byte.toNat then (-1, i)
    else if byte = 0 ∧ shift ≠ 0 then (-2, i)
    else
      let i := i ||| ((byte &&& 0x7f).toUInt64 <<< UInt64.ofNat shift)
      if byte &&& 0x80 = 0 then (read + 1, i)
      else readVarintLoop rest (shift + 7) (read + 1) i

/-- `read_varint` into a `uint64_t` from the start of `bytes`. -/
def readVarint (bytes : List UInt8) : ℤ × UInt64 :=
  readVarintLoop bytes 0 0 0

/-! ## The writer -/

theorem writeVarint_eq_encode {rounds i : ℕ} (h : i < 128 ^ (rounds + 1)) :
    writeVarint rounds i = encode i := by
  induction rounds generalizing i with
  | zero => rw [writeVarint, encode_of_lt (by simpa using h)]
  | succ rounds ih =>
    by_cases hi : 0x80 ≤ i
    · have hdiv : i / 128 < 128 ^ (rounds + 1) := by
        rw [Nat.div_lt_iff_lt_mul (by norm_num), ← pow_succ]
        exact h
      have hbyte : (UInt8.ofNat i &&& 0x7f) ||| 0x80 = UInt8.ofNat (i % 128 + 128) := by
        rw [← UInt8.toNat_inj, toNat_ofNat_and_or, UInt8.toNat_ofNat',
          Nat.mod_eq_of_lt (show i % 128 + 128 < 2 ^ 8 by omega)]
      rw [writeVarint, if_pos hi, hbyte, Nat.shiftRight_eq_div_pow, ih hdiv,
        encode_of_le hi]
    · rw [writeVarint, if_neg hi, encode_of_lt (by omega)]

theorem getVarintData_eq_encode (v : UInt64) : getVarintData v = encode v.toNat :=
  writeVarint_eq_encode (lt_of_lt_of_le v.toNat_lt (by norm_num))

/-! ## The reader -/

theorem toUInt64_and_0x7f (byte : UInt8) :
    (byte &&& 0x7f).toUInt64 = UInt64.ofNat (byte.toNat % 128) := by
  rw [← UInt64.toNat_inj, UInt8.toNat_toUInt64, toNat_and_0x7f, UInt64.toNat_ofNat',
    Nat.mod_eq_of_lt (show byte.toNat % 128 < 2 ^ 64 by omega)]

theorem toNat_readGroup {acc : UInt64} (byte : UInt8) {shift : ℕ} (hacc : acc.toNat < 2 ^ shift)
    (hshift : shift < 64) (hfit : byte.toNat % 128 * 2 ^ shift < 2 ^ 64) :
    (acc ||| ((byte &&& 0x7f).toUInt64 <<< UInt64.ofNat shift)).toNat =
      acc.toNat + byte.toNat % 128 * 2 ^ shift := by
  rw [toUInt64_and_0x7f, toNat_or_shiftLeft acc hacc hshift hfit]

/-- A byte without the high bit that passes the overflow and canonicity checks ends the
varint. -/
theorem readVarintLoop_last {byte : UInt8} {shift : ℕ} (rest : List UInt8) (read : ℤ)
    (acc : UInt64) (hlast : byte.toNat < 128)
    (hover : 64 ≤ shift + 7 → byte.toNat < 2 ^ (64 - shift)) (hcanon : shift ≠ 0 → byte ≠ 0) :
    readVarintLoop (byte :: rest) shift read acc =
      (read + 1, acc ||| ((byte &&& 0x7f).toUInt64 <<< UInt64.ofNat shift)) := by
  have hover' : ¬(64 ≤ shift + 7 ∧ 1 <<< (64 - shift) ≤ byte.toNat) := by
    rintro ⟨h64, hle⟩
    rw [Nat.one_shiftLeft] at hle
    exact absurd (hover h64) (Nat.not_lt.2 hle)
  have hcanon' : ¬(byte = 0 ∧ shift ≠ 0) := fun ⟨h0, hs⟩ => hcanon hs h0
  rw [readVarintLoop, if_neg hover', if_neg hcanon', if_pos ((and_0x80_eq_zero byte).2 hlast)]

theorem readVarintLoop_cont {byte : UInt8} {shift : ℕ} (rest : List UInt8) (read : ℤ)
    (acc : UInt64) (hcont : 128 ≤ byte.toNat) (hshift : shift + 7 < 64) :
    readVarintLoop (byte :: rest) shift read acc =
      readVarintLoop rest (shift + 7) (read + 1)
        (acc ||| ((byte &&& 0x7f).toUInt64 <<< UInt64.ofNat shift)) := by
  have hover : ¬(64 ≤ shift + 7 ∧ 1 <<< (64 - shift) ≤ byte.toNat) := by omega
  have hcanon : ¬(byte = 0 ∧ shift ≠ 0) := by
    rintro ⟨rfl, -⟩
    simp at hcont
  have hmore : ¬(byte &&& 0x80 = 0) := by
    rw [and_0x80_eq_zero]
    omega
  rw [readVarintLoop, if_neg hover, if_neg hcanon, if_neg hmore]

/-- The reader reads the writer's bytes back, whatever follows them: at offset `shift` with
the bits below it in `acc`, the groups of `m` land above them. -/
theorem readVarintLoop_encode (rest : List UInt8) (m : ℕ) :
    ∀ {shift : ℕ} (read : ℤ) {acc : UInt64}, acc.toNat < 2 ^ shift →
      m * 2 ^ shift < 2 ^ 64 → (shift ≠ 0 → m ≠ 0) →
      readVarintLoop (encode m ++ rest) shift read acc =
        (read + (encode m).length, UInt64.ofNat (acc.toNat + m * 2 ^ shift)) := by
  induction m using Nat.strongRecOn with
  | ind m ih =>
    intro shift read acc hacc hfit hzero
    -- a non-zero group fits only below offset 64
    have hshift : shift < 64 := by
      by_contra hbig
      have : 2 ^ 64 ≤ m * 2 ^ shift :=
        le_trans (Nat.pow_le_pow_right (by norm_num) (by omega))
          (Nat.le_mul_of_pos_left _ (Nat.pos_of_ne_zero (hzero (by omega))))
      omega
    have hsplit : 2 ^ 64 = 2 ^ (64 - shift) * 2 ^ shift := by
      rw [← pow_add, Nat.sub_add_cancel hshift.le]
    by_cases hm : m < 128
    · -- the last byte
      have hbyte : (UInt8.ofNat m).toNat = m := by
        rw [UInt8.toNat_ofNat', Nat.mod_eq_of_lt (by omega)]
      have hgroup := toNat_readGroup (UInt8.ofNat m) hacc hshift
        (by rw [hbyte, Nat.mod_eq_of_lt hm]; exact hfit)
      rw [hbyte, Nat.mod_eq_of_lt hm] at hgroup
      rw [encode_of_lt hm, List.singleton_append,
        readVarintLoop_last rest read acc (by rw [hbyte]; exact hm)
          (fun _ => by rw [hbyte]; exact Nat.lt_of_mul_lt_mul_right (hsplit ▸ hfit))
          (fun hs h0 => hzero hs (by simpa [hbyte] using congrArg UInt8.toNat h0)),
        ← hgroup, UInt64.ofNat_toNat]
      rfl
    · -- a byte with the high bit, then the groups above
      have hbyte : (UInt8.ofNat (m % 128 + 128)).toNat = m % 128 + 128 := by
        rw [UInt8.toNat_ofNat', Nat.mod_eq_of_lt (show m % 128 + 128 < 2 ^ 8 by omega)]
      have hpow7 : 2 ^ (shift + 7) = 128 * 2 ^ shift := by rw [pow_add]; ring
      have hshift7 : shift + 7 < 64 := by
        by_contra hbig
        have : 2 ^ 64 ≤ 128 * 2 ^ shift := by
          rw [← hpow7]; exact Nat.pow_le_pow_right (by norm_num) (by omega)
        have : 128 * 2 ^ shift ≤ m * 2 ^ shift := Nat.mul_le_mul_right _ (by omega)
        omega
      have hlow : (m % 128 + 128) % 128 = m % 128 := by omega
      have hmod := Nat.mod_lt m (show 0 < 128 by norm_num)
      have hgroup := toNat_readGroup (UInt8.ofNat (m % 128 + 128)) hacc hshift
        (by rw [hbyte, hlow]; nlinarith)
      rw [hbyte, hlow] at hgroup
      have hacc' : (acc ||| ((UInt8.ofNat (m % 128 + 128) &&& 0x7f).toUInt64 <<<
          UInt64.ofNat shift)).toNat < 2 ^ (shift + 7) := by
        rw [hgroup, hpow7]
        nlinarith
      have hfit' : m / 128 * 2 ^ (shift + 7) < 2 ^ 64 := by
        rw [hpow7]
        have : m / 128 * 128 ≤ m := Nat.div_mul_le_self m 128
        nlinarith
      rw [encode_of_le (by omega), List.cons_append,
        readVarintLoop_cont _ read acc (by rw [hbyte]; omega) hshift7,
        ih (m / 128) (by omega) (read + 1) hacc' hfit' (fun _ => by omega), hgroup,
        List.length_cons]
      refine Prod.ext ?_ ?_
      · simp only
        push_cast
        ring
      · simp only
        congr 1
        rw [hpow7]
        have := Nat.div_add_mod m 128
        nlinarith

/-- `read_varint` reads `get_varint_data v` back as `v`, with its length as the count,
whatever follows it. -/
theorem readVarint_getVarintData (v : UInt64) (rest : List UInt8) :
    readVarint (getVarintData v ++ rest) = (((getVarintData v).length : ℤ), v) := by
  rw [readVarint, getVarintData_eq_encode]
  have h := @readVarintLoop_encode rest v.toNat 0 0 0 (by simp)
    (by simpa using v.toNat_lt) (fun h => absurd rfl h)
  rw [h]
  simp

/-- What the loop can return from offset `shift`: an error, or a shortest-form varint in full
(its bytes, the count after them and the value they add), or, when the input ends while every
byte has the high bit, the count of all bytes. -/
theorem readVarintLoop_cases (bytes : List UInt8) :
    ∀ {shift : ℕ} (read : ℤ) {acc : UInt64}, acc.toNat < 2 ^ shift → shift < 64 →
      (readVarintLoop bytes shift read acc).1 < 0 ∨
      (∃ init last rest, bytes = init ++ last :: rest ∧ (∀ b ∈ init, 128 ≤ b.toNat) ∧
        last.toNat < 128 ∧ (shift ≠ 0 ∨ init ≠ [] → last ≠ 0) ∧
        acc.toNat + 2 ^ shift * value (init ++ [last]) < 2 ^ 64 ∧
        readVarintLoop bytes shift read acc =
          (read + init.length + 1, UInt64.ofNat (acc.toNat + 2 ^ shift * value (init ++ [last])))) ∨
      ((∀ b ∈ bytes, 128 ≤ b.toNat) ∧ (readVarintLoop bytes shift read acc).1 = read + bytes.length) := by
  induction bytes with
  | nil => intros; simp [readVarintLoop]
  | cons byte rest ih =>
    intro shift read acc hacc hshift
    by_cases hover : 64 ≤ shift + 7 ∧ 1 <<< (64 - shift) ≤ byte.toNat
    · left
      rw [readVarintLoop, if_pos hover]
      norm_num
    by_cases hcanon : byte = 0 ∧ shift ≠ 0
    · left
      rw [readVarintLoop, if_neg hover, if_pos hcanon]
      norm_num
    have hsplit : 2 ^ 64 = 2 ^ (64 - shift) * 2 ^ shift := by
      rw [← pow_add, Nat.sub_add_cancel hshift.le]
    -- the overflow check keeps the group inside the 64 bits
    have hfit : byte.toNat % 128 * 2 ^ shift < 2 ^ 64 := by
      rw [hsplit]
      apply Nat.mul_lt_mul_of_pos_right _ (Nat.two_pow_pos shift)
      by_cases h64 : 64 ≤ shift + 7
      · rw [Nat.one_shiftLeft] at hover
        exact lt_of_le_of_lt (Nat.mod_le _ _) (Nat.lt_of_not_le fun h => hover ⟨h64, h⟩)
      · calc byte.toNat % 128 < 2 ^ 7 := Nat.mod_lt _ (by norm_num)
          _ ≤ 2 ^ (64 - shift) := Nat.pow_le_pow_right (by norm_num) (by omega)
    have hgroup := toNat_readGroup byte hacc hshift hfit
    by_cases hlast : byte.toNat < 128
    · right; left
      have hvalue : value ([] ++ [byte]) = byte.toNat % 128 := by simp [value_cons]
      refine ⟨[], byte, rest, rfl, by simp, hlast, fun h => ?_, ?_, ?_⟩
      · exact fun h0 => hcanon ⟨h0, by simpa using h⟩
      · rw [hvalue, Nat.mul_comm, ← hgroup]
        exact UInt64.toNat_lt _
      · rw [readVarintLoop_last rest read acc hlast ?_ (fun hs h0 => hcanon ⟨h0, hs⟩), hvalue,
          Nat.mul_comm, ← hgroup, UInt64.ofNat_toNat]
        · simp
        · intro h64
          rw [Nat.one_shiftLeft] at hover
          exact Nat.lt_of_not_le fun h => hover ⟨h64, h⟩
    · have hcont : 128 ≤ byte.toNat := by omega
      have hshift7 : shift + 7 < 64 := by
        by_contra h64
        rw [Nat.one_shiftLeft] at hover
        exact hover ⟨by omega, le_trans (Nat.pow_le_pow_right (by norm_num) (by omega) :
          2 ^ (64 - shift) ≤ 2 ^ 7) hcont⟩
      have hacc' : acc.toNat + byte.toNat % 128 * 2 ^ shift < 2 ^ (shift + 7) := by
        rw [pow_add]
        have := Nat.mod_lt byte.toNat (show 0 < 128 by norm_num)
        nlinarith
      rw [← hgroup] at hacc'
      rw [readVarintLoop_cont rest read acc hcont hshift7]
      rcases ih (read + 1) hacc' hshift7 with herr | ⟨init, last, rest', hbytes, hinit, hlast',
          hcanon', hbound, heq⟩ | ⟨hall, hread⟩
      · exact Or.inl herr
      · -- a complete varint: this byte joins its groups
        have hvalue : 2 ^ shift * value (byte :: init ++ [last]) =
            byte.toNat % 128 * 2 ^ shift + 2 ^ (shift + 7) * value (init ++ [last]) := by
          rw [List.cons_append, value_cons, pow_add]
          ring
        right; left
        refine ⟨byte :: init, last, rest', by rw [hbytes]; rfl, ?_, hlast',
          fun _ => hcanon' (Or.inl (by omega)), ?_, ?_⟩
        · intro b hb
          rcases List.mem_cons.1 hb with rfl | hb
          · exact hcont
          · exact hinit b hb
        · rw [hvalue, ← Nat.add_assoc, ← hgroup]
          exact hbound
        · rw [heq, hvalue, ← Nat.add_assoc, ← hgroup, List.length_cons]
          push_cast
          ring_nf
      · -- the input ended inside the varint
        right; right
        refine ⟨fun b hb => ?_, by rw [hread, List.length_cons]; push_cast; ring⟩
        rcases List.mem_cons.1 hb with rfl | hb
        · exact hcont
        · exact hall b hb

/-- A positive count from `read_varint` means one of two things: the input starts with the
shortest form of the value read, and the count is its length; or the input is a cut-off varint,
every byte with the high bit, and the count is its length. -/
theorem readVarint_pos {bytes : List UInt8} (h : 0 < (readVarint bytes).1) :
    (∃ rest, bytes = encode (readVarint bytes).2.toNat ++ rest ∧
        (readVarint bytes).1 = (encode (readVarint bytes).2.toNat).length) ∨
      (bytes ≠ [] ∧ (∀ b ∈ bytes, 128 ≤ b.toNat) ∧ (readVarint bytes).1 = bytes.length) := by
  rcases @readVarintLoop_cases bytes 0 0 0 (by simp) (by norm_num) with
      herr | ⟨init, last, rest, hbytes, hinit, hlast, hcanon, hbound, heq⟩ | ⟨hall, hread⟩
  · exact absurd h (not_lt.2 (le_of_lt herr))
  · left
    simp only [UInt64.toNat_zero, pow_zero, Nat.one_mul, Nat.zero_add] at hbound heq
    have hvalue : (readVarint bytes).2.toNat = value (init ++ [last]) := by
      rw [readVarint, heq, UInt64.toNat_ofNat', Nat.mod_eq_of_lt hbound]
    have henc : encode (value (init ++ [last])) = init ++ [last] :=
      encode_value hinit hlast fun hne => hcanon (Or.inr hne)
    refine ⟨rest, ?_, ?_⟩
    · rw [hvalue, henc, hbytes, List.append_assoc, List.singleton_append]
    · rw [hvalue, henc, readVarint, heq, List.length_append, List.length_singleton]
      simp
  · right
    rw [readVarint] at h ⊢
    refine ⟨fun hnil => ?_, hall, by simpa using hread⟩
    subst hnil
    simp [readVarintLoop] at h

/-! ## `read_varint<bits>` on any unsigned type

The same loop for every width: the value is a number, since the checks keep each group below
`2 ^ bits` and `|=` into a `T` of at least `bits` digits loses nothing. It differs from
`Common::readVarint` only in how it stops: it checks a zero byte before the high bit, which
comes to the same, and at the end of the input it returns the count so far where the stream
reader throws. -/

/-- The loop of `read_varint<bits>`, at group offset `shift`, after `read` bytes, with the value
so far in `i`. -/
def readVarintBitsLoop (bits : ℕ) : List UInt8 → ℕ → ℤ → ℕ → ℤ × ℕ
  | [], _, read, i => (read, i)
  | byte :: rest, shift, read, i =>
    if bits ≤ shift + 7 ∧ 1 <<< (bits - shift) ≤ byte.toNat then (-1, i)
    else if byte = 0 ∧ shift ≠ 0 then (-2, i)
    else
      let i := i ||| (byte &&& 0x7f).toNat <<< shift
      if byte &&& 0x80 = 0 then (read + 1, i)
      else readVarintBitsLoop bits rest (shift + 7) (read + 1) i

/-- `read_varint<bits>` from the start of `bytes`. -/
def readVarintBits (bits : ℕ) (bytes : List UInt8) : ℤ × ℕ :=
  readVarintBitsLoop bits bytes 0 0 0

variable {bits : ℕ}

theorem readVarintBitsLoop_cons (byte : UInt8) (rest : List UInt8) (shift : ℕ) (read : ℤ)
    (i : ℕ) :
    readVarintBitsLoop bits (byte :: rest) shift read i =
      if bits - 7 ≤ shift ∧ 1 <<< (bits - shift) ≤ byte.toNat then (-1, i)
      else if byte &&& 0x80 = 0 then
        if byte = 0 ∧ shift ≠ 0 then (-2, i)
        else (read + 1, i ||| (byte &&& 0x7f).toNat <<< shift)
      else readVarintBitsLoop bits rest (shift + 7) (read + 1)
        (i ||| (byte &&& 0x7f).toNat <<< shift) := by
  rw [readVarintBitsLoop]
  dsimp only
  by_cases hover : bits - 7 ≤ shift ∧ 1 <<< (bits - shift) ≤ byte.toNat
  · rw [if_pos hover, if_pos ⟨by omega, hover.2⟩]
  rw [if_neg hover, if_neg fun h => hover ⟨by omega, h.2⟩]
  by_cases hcanon : byte = 0 ∧ shift ≠ 0
  · -- a zero byte has no high bit
    have hlast : byte &&& 0x80 = 0 := by rw [hcanon.1]; rfl
    rw [if_pos hcanon, if_pos hlast, if_pos hcanon]
  rw [if_neg hcanon]
  by_cases hlast : byte &&& 0x80 = 0
  · rw [if_pos hlast, if_pos hlast, if_neg hcanon]
  · rw [if_neg hlast, if_neg hlast]

/-- Where the stream reader reads a value, `read_varint` reads the same value from the same
bytes. -/
theorem readVarintBitsLoop_of_ok (bytes : List UInt8) :
    ∀ {shift temp value : ℕ} {rest : List UInt8} (read : ℤ),
      Common.readVarintLoop bits bytes shift temp = .ok (value, rest) →
      ∃ init, bytes = init ++ rest ∧
        readVarintBitsLoop bits bytes shift read temp = (read + init.length, value) := by
  induction bytes with
  | nil => intro _ _ _ _ _ h; simp [Common.readVarintLoop] at h
  | cons byte bytes ih =>
    intro shift temp value rest read h
    rw [Common.readVarintLoop] at h
    rw [readVarintBitsLoop_cons]
    split_ifs at h ⊢ with hover hlast hcanon
    · -- the last byte
      obtain ⟨rfl, rfl⟩ := Prod.mk.inj (Except.ok.inj h)
      exact ⟨[byte], rfl, by simp⟩
    · -- a byte with the high bit: the rest of the value follows it
      obtain ⟨init, hbytes, heq⟩ := ih (read + 1) h
      refine ⟨byte :: init, by rw [hbytes, List.cons_append], ?_⟩
      rw [heq, List.length_cons, Nat.cast_succ]
      congr 1
      ring

/-- Where the stream reader throws, `read_varint` returns a negative code, or it ran to the end
of the input inside a varint and returns the count of all bytes. -/
theorem readVarintBitsLoop_of_error (bytes : List UInt8) :
    ∀ {shift temp : ℕ} {e : String} (read : ℤ),
      Common.readVarintLoop bits bytes shift temp = .error e →
      (readVarintBitsLoop bits bytes shift read temp).1 < 0 ∨
        (∀ b ∈ bytes, 128 ≤ b.toNat) ∧
          (readVarintBitsLoop bits bytes shift read temp).1 = read + bytes.length := by
  induction bytes with
  | nil => intro _ _ _ read _; simp [readVarintBitsLoop]
  | cons byte bytes ih =>
    intro shift temp e read h
    rw [Common.readVarintLoop] at h
    rw [readVarintBitsLoop_cons]
    split_ifs at h ⊢ with hover hlast hcanon
    · left; norm_num
    · left; norm_num
    · rcases ih (read + 1) h with hneg | ⟨hall, hcount⟩
      · exact Or.inl hneg
      · have hcont : 128 ≤ byte.toNat := by
          rw [and_0x80_eq_zero] at hlast
          omega
        refine Or.inr ⟨fun b hb => ?_, by rw [hcount, List.length_cons]; push_cast; ring⟩
        rcases List.mem_cons.1 hb with rfl | hb
        · exact hcont
        · exact hall b hb

theorem writeVarint_bits_eq_encode {i : ℕ} (hi : i < 2 ^ bits) : writeVarint bits i = encode i := by
  apply writeVarint_eq_encode
  calc i < 2 ^ bits := hi
    _ ≤ 2 ^ (7 * (bits + 1)) := Nat.pow_le_pow_right (by norm_num) (by omega)
    _ = 128 ^ (bits + 1) := by rw [pow_mul]; norm_num

theorem readVarintBits_writeVarint {i : ℕ} (hi : i < 2 ^ bits) (rest : List UInt8) :
    readVarintBits bits (writeVarint bits i ++ rest) = (((writeVarint bits i).length : ℤ), i) := by
  obtain ⟨init, hbytes, heq⟩ := readVarintBitsLoop_of_ok _ 0 (Common.readVarint_complete hi rest)
  have hinit : init = encode i := (List.append_cancel_right hbytes).symm
  rw [readVarintBits, writeVarint_bits_eq_encode hi, heq, hinit, Int.zero_add]

theorem readVarintBits_of_readVarint {bytes rest : List UInt8} {value : ℕ} (hbits : 0 < bits)
    (h : Common.readVarint bits bytes = .ok (value, rest)) :
    bytes = writeVarint bits value ++ rest ∧ value < 2 ^ bits ∧
      readVarintBits bits bytes = (((writeVarint bits value).length : ℤ), value) := by
  obtain ⟨hbytes, hlt⟩ := Common.readVarint_sound hbits h
  rw [← writeVarint_bits_eq_encode hlt] at hbytes
  refine ⟨hbytes, hlt, ?_⟩
  rw [hbytes]
  exact readVarintBits_writeVarint hlt rest

theorem exists_lt_128_of_encode {bytes rest : List UInt8} {value : ℕ}
    (h : bytes = encode value ++ rest) : ∃ b ∈ bytes, b.toNat < 128 := by
  obtain ⟨init, last, henc, -, hlast, -⟩ := encode_shape value
  exact ⟨last, by simp [h, henc], hlast⟩

/-- A positive count from `read_varint<bits>`: the input starts with the shortest form of the
value read and the count is its length, or the input ended inside a varint and the count is the
number of its bytes. -/
theorem readVarintBits_pos {bytes : List UInt8} (hbits : 0 < bits)
    (hpos : 0 < (readVarintBits bits bytes).1) :
    (∃ rest, bytes = writeVarint bits (readVarintBits bits bytes).2 ++ rest ∧
        (readVarintBits bits bytes).1 = (writeVarint bits (readVarintBits bits bytes).2).length ∧
        (readVarintBits bits bytes).2 < 2 ^ bits) ∨
      (bytes ≠ [] ∧ (∀ b ∈ bytes, 128 ≤ b.toNat) ∧
        (readVarintBits bits bytes).1 = bytes.length) := by
  cases hread : Common.readVarint bits bytes with
  | ok result =>
    obtain ⟨value, rest⟩ := result
    obtain ⟨hbytes, hlt, heq⟩ := readVarintBits_of_readVarint hbits hread
    left
    rw [heq]
    exact ⟨rest, hbytes, rfl, hlt⟩
  | error e =>
    rcases readVarintBitsLoop_of_error bytes 0 hread with hneg | ⟨hall, hcount⟩
    · exact absurd hpos (not_lt.2 hneg.le)
    · -- an empty input gives the count 0
      have hne : bytes ≠ [] := by
        rintro rfl
        simp [readVarintBits, readVarintBitsLoop] at hpos
      right
      exact ⟨hne, hall, by rw [readVarintBits, hcount, Int.zero_add]⟩

/-- The stream reader throws exactly where `read_varint` returns a negative code or runs to the
end of the input inside a varint. -/
theorem readVarint_error_iff {bytes : List UInt8} (hbits : 0 < bits) :
    (∃ e, Common.readVarint bits bytes = .error e) ↔
      (readVarintBits bits bytes).1 < 0 ∨
        (∀ b ∈ bytes, 128 ≤ b.toNat) ∧ (readVarintBits bits bytes).1 = bytes.length := by
  cases hread : Common.readVarint bits bytes with
  | ok result =>
    obtain ⟨value, rest⟩ := result
    obtain ⟨hbytes, hlt, heq⟩ := readVarintBits_of_readVarint hbits hread
    obtain ⟨b, hb, hlast⟩ :=
      exists_lt_128_of_encode (hbytes.trans (by rw [writeVarint_bits_eq_encode hlt]))
    rw [heq]
    simp only [reduceCtorEq, exists_false, false_iff, not_or, not_and]
    exact ⟨by omega, fun hall => absurd (hall b hb) (by omega)⟩
  | error e =>
    have h := readVarintBitsLoop_of_error bytes 0 hread
    rw [Int.zero_add] at h
    exact ⟨fun _ => h, fun _ => ⟨e, rfl⟩⟩

/-- `write_varint` and `read_varint<bits>` round-trip for every width; a positive count from
`read_varint` is a shortest form read in full, or an input that ended inside a varint; the
stream reader reads the first kind only, the same value from the same bytes, and throws on the
second and wherever `read_varint` returns a negative code. -/
theorem readVarintBits_readVarint_agree :
    (∀ bits i, i < 2 ^ bits → ∀ rest,
        readVarintBits bits (writeVarint bits i ++ rest) = (((writeVarint bits i).length : ℤ), i)) ∧
      (∀ bits, 0 < bits → ∀ bytes, 0 < (readVarintBits bits bytes).1 →
        (∃ rest, bytes = writeVarint bits (readVarintBits bits bytes).2 ++ rest ∧
            (readVarintBits bits bytes).1 =
              (writeVarint bits (readVarintBits bits bytes).2).length ∧
            (readVarintBits bits bytes).2 < 2 ^ bits) ∨
          (bytes ≠ [] ∧ (∀ b ∈ bytes, 128 ≤ b.toNat) ∧
            (readVarintBits bits bytes).1 = bytes.length)) ∧
      (∀ bits, 0 < bits → ∀ bytes value rest,
        Common.readVarint bits bytes = .ok (value, rest) ↔
          bytes = writeVarint bits value ++ rest ∧ value < 2 ^ bits ∧
            readVarintBits bits bytes = (((writeVarint bits value).length : ℤ), value)) ∧
      (∀ bits, 0 < bits → ∀ bytes,
        (∃ e, Common.readVarint bits bytes = .error e) ↔
          (readVarintBits bits bytes).1 < 0 ∨
            (∀ b ∈ bytes, 128 ≤ b.toNat) ∧ (readVarintBits bits bytes).1 = bytes.length) := by
  refine ⟨fun bits i hi rest => readVarintBits_writeVarint hi rest,
    fun bits hbits bytes hpos => readVarintBits_pos hbits hpos, ?_,
    fun bits hbits bytes => readVarint_error_iff hbits⟩
  intro bits hbits bytes value rest
  constructor
  · exact readVarintBits_of_readVarint hbits
  · rintro ⟨hbytes, hlt, -⟩
    rw [hbytes, writeVarint_bits_eq_encode hlt]
    exact Common.readVarint_complete hlt rest

/-- An input cut after a continuation byte: `read_varint<8>` counts the byte and reads 0, whose
`write_varint` is another byte, and the stream reader throws. -/
theorem readVarintBits_cut_off :
    readVarintBits 8 [0x80] = (1, 0) ∧ writeVarint 8 0 = [0] ∧
      Common.readVarint 8 [0x80] = .error "Failed to read from IInputStream" :=
  ⟨rfl, rfl, rfl⟩

end Tools
