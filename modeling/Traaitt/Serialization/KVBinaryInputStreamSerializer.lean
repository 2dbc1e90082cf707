import Traaitt.Serialization.KVBinaryOutputStreamSerializer
import Traaitt.Common.StreamTools
import Traaitt.Common.JsonValue

/-! `KVBinaryInputStreamSerializer`: the reader of the key-value binary format, which parses the
whole input into a `JsonValue` (`parseBinary`) before any field is asked for. It is a recursive
descent: a section is a count and that many named entries, an entry is a type byte and a value, or
an array of values of one type; sizes are the format's varints of one to eight bytes.

An object becomes a `std::map` filled by `insert`, which is `emplace`: of two fields of one name
the first is kept. So the reader gives back the fields and values a tree's calls wrote when each
object's names are distinct (`parseBinary_dump`); a repeated name loses its later values. The
recursion is bounded by a fuel argument of the model, which enough fuel never exhausts. -/

namespace CryptoNote

open Common

/-- A byte of a `std::string`, as a character. -/
def toChar (b : UInt8) : Char :=
  Char.ofNat b.toNat

/-- `readPod<KVBinaryStorageBlockHeader>`: the packed header, from its nine bytes. -/
def KVBinaryStorageBlockHeader.ofBytes (bytes : List UInt8) : KVBinaryStorageBlockHeader :=
  ⟨UInt32.ofBitVec (Crypto.podOfBytes 32 (bytes.take 4)),
    UInt32.ofBitVec (Crypto.podOfBytes 32 ((bytes.drop 4).take 4)), bytes.getD 8 0⟩

/-- The `int64_t` a reader makes of an integer of `8 * width` bits, signed or not. -/
def int64OfBits {width : ℕ} (signed : Bool) (value : BitVec (8 * width)) : Int64 :=
  Int64.ofBitVec (if signed then value.signExtend 64 else value.setWidth 64)

namespace KVBinaryInputStreamSerializer

/-- The loop `for (i = 1; i <= bytesLeft; ++i) value |= read<uint8_t>(s) << (i * 8)`, with
`bytesLeft` rounds to go. The shifts stay below 64 bits, so the value is a natural number. -/
def readVarintLoop : ℕ → ℕ → ℕ → List UInt8 → Except String (ℕ × List UInt8)
  | 0, _, value, s => .ok (value, s)
  | bytesLeft + 1, i, value, s => do
    let (n, s) ← readUInt8 s
    readVarintLoop bytesLeft (i + 1) (value ||| n.toNat <<< (i * 8)) s

/-- `readVarint(s)`: the size mark in the first byte's low two bits says how many bytes follow;
the value is all of them, little-endian, shifted right by two. -/
def readVarint (s : List UInt8) : Except String (UInt64 × List UInt8) := do
  let (b, s) ← readUInt8 s
  let sizeMask := b &&& PORTABLE_RAW_SIZE_MARK_MASK
  let bytesLeft :=
    if sizeMask = PORTABLE_RAW_SIZE_MARK_BYTE then 0
    else if sizeMask = PORTABLE_RAW_SIZE_MARK_WORD then 1
    else if sizeMask = PORTABLE_RAW_SIZE_MARK_DWORD then 3
    else 7
  let (value, s) ← readVarintLoop bytesLeft 1 b.toNat s
  pure (UInt64.ofNat (value >>> 2), s)

/-- `readString(s)`: a size, then that many bytes. -/
def readString (s : List UInt8) : Except String (List UInt8 × List UInt8) := do
  let (size, s) ← readVarint s
  read size.toNat s

/-- `readName(s, name)`: a length byte, then the name; a length of zero leaves `name` as it was. -/
def readName (name : List UInt8) (s : List UInt8) : Except String (List UInt8 × List UInt8) := do
  let (len, s) ← readUInt8 s
  if len ≠ 0 then read len.toNat s else pure (name, s)

/-- `readIntegerJson<T>`: a `T` of `width` bytes, as its `int64_t` value. -/
def readIntegerJson (width : ℕ) (signed : Bool) (s : List UInt8) :
    Except String (JsonValue UInt64 × List UInt8) := do
  let (bytes, s) ← read width s
  pure (.integer (int64OfBits signed (Crypto.podOfBytes (8 * width) bytes)), s)

/-- `readPodJson<double>`: the double whose bits are the eight bytes. -/
def readDoubleJson (s : List UInt8) : Except String (JsonValue UInt64 × List UInt8) := do
  let (bytes, s) ← read 8 s
  pure (.real (UInt64.ofBitVec (Crypto.podOfBytes 64 bytes)), s)

/-- What the model answers when the recursion bound runs out. -/
def fuelExhausted : String :=
  "recursion bound exhausted"

mutual

/-- `loadSection(stream)`: the count of the entries, then the entries. -/
def loadSection : ℕ → List UInt8 → Except String (JsonValue UInt64 × List UInt8)
  | 0, _ => .error fuelExhausted
  | fuel + 1, s => do
    let (count, s) ← readVarint s
    loadSectionLoop fuel count.toNat [] [] s

/-- The loop `while (count--) { readName(stream, name); sec.insert(name, loadEntry(stream)); }`,
with the name read last and the entries so far. -/
def loadSectionLoop :
    ℕ → ℕ → List UInt8 → List (List Char × JsonValue UInt64) → List UInt8 →
      Except String (JsonValue UInt64 × List UInt8)
  | 0, _, _, _, _ => .error fuelExhausted
  | _ + 1, 0, _, sec, s => pure (.object sec, s)
  | fuel + 1, count + 1, name, sec, s => do
    let (name, s) ← readName name s
    let (entry, s) ← loadEntry fuel s
    loadSectionLoop fuel count name (Common.emplaceEntry (name.map toChar) entry sec) s

/-- `loadValue(stream, type)`. -/
def loadValue : ℕ → UInt8 → List UInt8 → Except String (JsonValue UInt64 × List UInt8)
  | 0, _, _ => .error fuelExhausted
  | fuel + 1, type, s =>
    if type = BIN_KV_SERIALIZE_TYPE_INT64 then readIntegerJson 8 true s
    else if type = BIN_KV_SERIALIZE_TYPE_INT32 then readIntegerJson 4 true s
    else if type = BIN_KV_SERIALIZE_TYPE_INT16 then readIntegerJson 2 true s
    else if type = BIN_KV_SERIALIZE_TYPE_INT8 then readIntegerJson 1 true s
    else if type = BIN_KV_SERIALIZE_TYPE_UINT64 then readIntegerJson 8 false s
    else if type = BIN_KV_SERIALIZE_TYPE_UINT32 then readIntegerJson 4 false s
    else if type = BIN_KV_SERIALIZE_TYPE_UINT16 then readIntegerJson 2 false s
    else if type = BIN_KV_SERIALIZE_TYPE_UINT8 then readIntegerJson 1 false s
    else if type = BIN_KV_SERIALIZE_TYPE_DOUBLE then readDoubleJson s
    else if type = BIN_KV_SERIALIZE_TYPE_BOOL then
      (fun (b, s) => (.bool (b ≠ 0), s)) <$> readUInt8 s
    else if type = BIN_KV_SERIALIZE_TYPE_STRING then
      (fun (str, s) => (.string (str.map toChar), s)) <$> readString s
    else if type = BIN_KV_SERIALIZE_TYPE_OBJECT then loadSection fuel s
    else if type = BIN_KV_SERIALIZE_TYPE_ARRAY then loadArray fuel type s
    else .error "Unknown data type"

/-- `loadEntry(stream)`: the type byte, whose flag marks an array of values of the other bits'
type. -/
def loadEntry : ℕ → List UInt8 → Except String (JsonValue UInt64 × List UInt8)
  | 0, _ => .error fuelExhausted
  | fuel + 1, s => do
    let (type, s) ← readUInt8 s
    if type &&& BIN_KV_SERIALIZE_FLAG_ARRAY ≠ 0 then
      loadArray fuel (type &&& ~~~BIN_KV_SERIALIZE_FLAG_ARRAY) s
    else loadValue fuel type s

/-- `loadArray(stream, itemType)`: the count, then that many values of the type. -/
def loadArray : ℕ → UInt8 → List UInt8 → Except String (JsonValue UInt64 × List UInt8)
  | 0, _, _ => .error fuelExhausted
  | fuel + 1, itemType, s => do
    let (count, s) ← readVarint s
    loadArrayLoop fuel itemType count.toNat [] s

/-- The loop `while (count--) arr.pushBack(loadValue(stream, itemType));`. -/
def loadArrayLoop :
    ℕ → UInt8 → ℕ → List (JsonValue UInt64) → List UInt8 →
      Except String (JsonValue UInt64 × List UInt8)
  | 0, _, _, _, _ => .error fuelExhausted
  | _ + 1, _, 0, arr, s => pure (.array arr, s)
  | fuel + 1, itemType, count + 1, arr, s => do
    let (value, s) ← loadValue fuel itemType s
    loadArrayLoop fuel itemType count (arr ++ [value]) s

end

/-- `parseBinary(stream)`: the header, checked, then the root section. -/
def parseBinary (fuel : ℕ) (s : List UInt8) : Except String (JsonValue UInt64) := do
  let (hdrBytes, s) ← read 9 s
  let hdr := KVBinaryStorageBlockHeader.ofBytes hdrBytes
  if hdr.signatureA ≠ PORTABLE_STORAGE_SIGNATUREA ∨ hdr.signatureB ≠ PORTABLE_STORAGE_SIGNATUREB then
    throw "Invalid binary storage signature"
  else if hdr.ver ≠ PORTABLE_STORAGE_FORMAT_VER then
    throw "Unknown binary storage format version"
  else (·.1) <$> loadSection fuel s

end KVBinaryInputStreamSerializer

/-! ## What a tree is read as -/

mutual

/-- The value a tree stands for: an integer as its `int64_t` value, a double by its bits, a string
or a blob as its characters, an object as its fields in the key order of a `std::map`, and an
array as its elements. -/
def KVValue.toJson : KVValue → JsonValue UInt64
  | .integer kind value =>
    .integer (Int64.ofInt (if kind.signed then value.toInt else value.toNat))
  | .double value => .real value
  | .bool value => .bool value
  | .string value | .binary value => .string (value.map toChar)
  | .object fields => .object ((fieldsJson fields).insertionSort fun a b => a.1 ≤ b.1)
  | .array elements => .array (elementsJson elements)

def fieldsJson : List (List UInt8 × KVValue) → List (List Char × JsonValue UInt64)
  | [] => []
  | (name, value) :: fields => (name.map toChar, value.toJson) :: fieldsJson fields

def elementsJson : List KVValue → List (JsonValue UInt64)
  | [] => []
  | value :: values => value.toJson :: elementsJson values

end

mutual

/-- `p` holds of the value and of every value in it. -/
def KVValue.Forall (p : KVValue → Prop) : KVValue → Prop
  | .object fields => p (.object fields) ∧ FieldsForall p fields
  | .array elements => p (.array elements) ∧ ElementsForall p elements
  | v => p v

def FieldsForall (p : KVValue → Prop) : List (List UInt8 × KVValue) → Prop
  | [] => True
  | (_, v) :: fields => v.Forall p ∧ FieldsForall p fields

def ElementsForall (p : KVValue → Prop) : List KVValue → Prop
  | [] => True
  | v :: values => v.Forall p ∧ ElementsForall p values

end

/-- The fields of an object have distinct names. -/
def KVValue.NamesDistinct : KVValue → Prop
  | .object fields => (fields.map Prod.fst).Nodup
  | .array _ | .integer _ _ | .double _ | .bool _ | .string _ | .binary _ => True

/-- The sizes the writer packs, of an object, an array, a string or a blob, fit the format's
varints: `writeArraySize` takes at most `2 ^ 62 - 1`. -/
def KVValue.SizesFit : KVValue → Prop
  | .object fields => fields.length ≤ 4611686018427387903
  | .array elements => elements.length ≤ 4611686018427387903
  | .string value | .binary value => value.length ≤ 4611686018427387903
  | .integer _ _ | .double _ | .bool _ => True

/-- A value that is neither an object nor an array: one call of the writer, one read. -/
def KVValue.IsScalar : KVValue → Prop
  | .object _ | .array _ => False
  | .integer _ _ | .double _ | .bool _ | .string _ | .binary _ => True

mutual

/-- The fuel the loader needs for a value, as `loadValue` or, for an array, `loadArray`: one
round for each call it goes through, over the deepest of the values in it. -/
def KVValue.rank : KVValue → ℕ
  | .object fields => fieldsRank fields + 2
  | .array elements => elementsRank elements + 1
  | .integer _ _ | .double _ | .bool _ | .string _ | .binary _ => 1

/-- The fuel of `loadSectionLoop` over the fields. -/
def fieldsRank : List (List UInt8 × KVValue) → ℕ
  | [] => 1
  | (_, v) :: fields => max (v.rank + 1) (fieldsRank fields) + 1

/-- The fuel of `loadArrayLoop` over the elements. -/
def elementsRank : List KVValue → ℕ
  | [] => 1
  | v :: values => max v.rank (elementsRank values) + 1

end

namespace KVBinaryInputStreamSerializer

/-! ## Sizes -/

theorem ofLeBytes_cons (b : UInt8) (bytes : List UInt8) :
    Radix.ofLeBytes (b :: bytes) = b.toNat + 256 * Radix.ofLeBytes bytes := by
  rw [← List.singleton_append, Radix.ofLeBytes_append, Radix.ofLeBytes_singleton,
    List.length_singleton, pow_one]

/-- The loop reads the next bytes as the digits above those of the value it has. -/
theorem readVarintLoop_append (bytes rest : List UInt8) {i value : ℕ}
    (hvalue : value < 2 ^ (8 * i)) :
    readVarintLoop bytes.length i value (bytes ++ rest) =
      .ok (value + 2 ^ (8 * i) * Radix.ofLeBytes bytes, rest) := by
  induction bytes generalizing i value with
  | nil => simp [readVarintLoop, Radix.ofLeBytes]
  | cons b bytes ih =>
    have hb := b.toNat_lt
    -- the new byte's bits are above the value's, so the `|=` adds it
    have hor : value ||| b.toNat <<< (i * 8) = value + 2 ^ (8 * i) * b.toNat := by
      rw [Nat.shiftLeft_eq, Nat.mul_comm i 8, Nat.mul_comm, Nat.or_comm,
        ← Nat.two_pow_add_eq_or_of_lt hvalue, Nat.add_comm]
    have hnext : value + 2 ^ (8 * i) * b.toNat < 2 ^ (8 * (i + 1)) := by
      calc value + 2 ^ (8 * i) * b.toNat < 2 ^ (8 * i) * (b.toNat + 1) := by
            rw [Nat.mul_succ]; omega
        _ ≤ 2 ^ (8 * i) * 2 ^ 8 := Nat.mul_le_mul_left _ (Nat.succ_le_of_lt hb)
        _ = 2 ^ (8 * (i + 1)) := by rw [← pow_add]; ring_nf
    rw [List.length_cons, List.cons_append, readVarintLoop]
    simp only [readUInt8, ExceptRun.ok_bind]
    rw [hor, ih hnext, ofLeBytes_cons]
    congr 2
    ring

/-- `packVarint` then `readVarint`, for a mark that says how many bytes follow the first and a
size whose shift fits in them. -/
theorem readVarint_packVarint {width : ℕ} {mark : UInt8} {size : UInt64} (rest : List UInt8)
    (hmark : mark.toNat < 4)
    (hleft : (if mark = PORTABLE_RAW_SIZE_MARK_BYTE then 0
      else if mark = PORTABLE_RAW_SIZE_MARK_WORD then 1
      else if mark = PORTABLE_RAW_SIZE_MARK_DWORD then 3 else 7) + 1 = width)
    (hfits : 4 * size.toNat + 4 ≤ 2 ^ (8 * width)) (hsize : size.toNat < 2 ^ 62) :
    readVarint (packVarint width mark size ++ rest) = .ok (size, rest) := by
  obtain ⟨left, rfl⟩ : ∃ left, width = left + 1 := ⟨width - 1, by omega⟩
  -- the packed number: the size shifted by two, with the mark in the low bits
  have hshift : (size <<< 2).toNat = 4 * size.toNat := by
    have h2 : (2 : UInt64).toNat % 64 = 2 := rfl
    rw [UInt64.toNat_shiftLeft, h2, Nat.shiftLeft_eq, Nat.mod_eq_of_lt (by omega)]
    ring
  have hpacked : (size <<< 2).toNat % 2 ^ (8 * (left + 1)) ||| mark.toNat =
      4 * size.toNat + mark.toNat := by
    rw [hshift, Nat.mod_eq_of_lt (by omega)]
    exact (Nat.two_pow_add_eq_or_of_lt (i := 2) hmark _).symm
  unfold packVarint
  rw [hpacked]
  generalize hX : 4 * size.toNat + mark.toNat = X
  have hX256 : X < 256 ^ (left + 1) := by
    rw [show (256 : ℕ) = 2 ^ 8 from rfl, ← pow_mul]
    omega
  have hfirst : (UInt8.ofNat (X % 256)).toNat = X % 256 := by
    rw [UInt8.toNat_ofNat', Nat.mod_eq_of_lt (Nat.mod_lt _ (by norm_num))]
  have hmask : UInt8.ofNat (X % 256) &&& PORTABLE_RAW_SIZE_MARK_MASK = mark := by
    apply UInt8.toNat_inj.1
    rw [UInt8.toNat_and, hfirst, show PORTABLE_RAW_SIZE_MARK_MASK.toNat = 2 ^ 2 - 1 from rfl,
      Nat.and_two_pow_sub_one_eq_mod, Nat.mod_mod_of_dvd _ (by norm_num)]
    omega
  simp only [Radix.leBytes, Radix.digits_succ, List.map_cons, List.cons_append, readVarint,
    readUInt8, ExceptRun.ok_bind, hmask]
  rw [Nat.succ_inj.1 hleft, hfirst]
  have htail := readVarintLoop_append ((Radix.digits 256 left (X / 256)).map UInt8.ofNat) rest
    (show X % 256 < 2 ^ (8 * 1) from Nat.mod_lt _ (by norm_num))
  rw [List.length_map, Radix.length_digits] at htail
  rw [htail]
  -- what the loop read is all the bytes, the packed number itself
  have hvalue : X % 256 + 2 ^ (8 * 1) * Radix.ofLeBytes
      ((Radix.digits 256 left (X / 256)).map UInt8.ofNat) = X := by
    have hall := Radix.ofLeBytes_leBytes (left + 1) X
    rw [Radix.leBytes, Radix.digits_succ, List.map_cons, ofLeBytes_cons, hfirst,
      Nat.mod_eq_of_lt hX256] at hall
    simpa using hall
  simp only [ExceptRun.ok_bind, hvalue, Nat.shiftRight_eq_div_pow]
  rw [← hX, show 2 ^ 2 = 4 from rfl, Nat.add_comm, Nat.add_mul_div_left _ _ (by norm_num),
    Nat.div_eq_of_lt hmark, Nat.zero_add, UInt64.ofNat_toNat]
  rfl

/-- `writeArraySize` then `readVarint`: every size up to `2 ^ 62 - 1` is written, and read back. -/
theorem readVarint_writeArraySize {size : UInt64} (hsize : size ≤ 4611686018427387903) :
    ∃ bytes, writeArraySize size = .ok bytes ∧ ∀ rest, readVarint (bytes ++ rest) = .ok (size, rest) := by
  rw [UInt64.le_iff_toNat_le] at hsize
  have hlt : size.toNat < 2 ^ 62 := by simp at hsize; omega
  unfold writeArraySize
  split_ifs with hbyte hword hdword hbig
  · exact ⟨_, rfl, fun rest => readVarint_packVarint rest (by decide) (by decide)
      (by rw [UInt64.le_iff_toNat_le] at hbyte; simp at hbyte; omega) hlt⟩
  · exact ⟨_, rfl, fun rest => readVarint_packVarint rest (by decide) (by decide)
      (by rw [UInt64.le_iff_toNat_le] at hword; simp at hword; omega) hlt⟩
  · exact ⟨_, rfl, fun rest => readVarint_packVarint rest (by decide) (by decide)
      (by rw [UInt64.le_iff_toNat_le] at hdword; simp at hdword; omega) hlt⟩
  · rw [gt_iff_lt, UInt64.lt_iff_toNat_lt] at hbig
    simp at hbig
    omega
  · exact ⟨_, rfl, fun rest => readVarint_packVarint rest (by decide) (by decide)
      (by norm_num; omega) hlt⟩

theorem toNat_toUInt64_of_le {n : ℕ} (hn : n ≤ 4611686018427387903) : n.toUInt64.toNat = n := by
  rw [Nat.toUInt64, UInt64.toNat_ofNat', Nat.mod_eq_of_lt (by omega)]

/-- The size of a list the writer packs comes back as the list's length. -/
theorem readVarint_length {n : ℕ} (hn : n ≤ 4611686018427387903) :
    ∃ bytes, writeArraySize n.toUInt64 = .ok bytes ∧
      ∀ rest, readVarint (bytes ++ rest) = .ok (n.toUInt64, rest) := by
  apply readVarint_writeArraySize
  rw [UInt64.le_iff_toNat_le, toNat_toUInt64_of_le hn]
  exact hn

/-! ## Names, types and scalars -/

theorem toNat_toChar (b : UInt8) : (toChar b).toNat = b.toNat := by
  have hvalid : b.toNat.isValidChar := Or.inl (by have := b.toNat_lt; omega)
  rw [toChar, Char.ofNat, dif_pos hvalid]
  rfl

/-- Distinct bytes are distinct characters, so distinct names stay distinct keys. -/
theorem toChar_injective : Function.Injective toChar := fun a b h =>
  UInt8.toNat_inj.1 (by rw [← toNat_toChar a, ← toNat_toChar b, h])

theorem readName_writeElementName {name : List UInt8} (hname : name ≠ [])
    (hlength : name.length ≤ 255) (previous rest : List UInt8) :
    readName previous (UInt8.ofNat name.length :: (name ++ rest)) = .ok (name, rest) := by
  have hlen : (UInt8.ofNat name.length).toNat = name.length := by
    rw [UInt8.toNat_ofNat', Nat.mod_eq_of_lt (by omega)]
  have hne : UInt8.ofNat name.length ≠ 0 := fun h =>
    hname (List.length_eq_zero_iff.1 (by rw [← hlen, h]; rfl))
  simp only [readName, readUInt8, ExceptRun.ok_bind, ne_eq, hne, not_false_eq_true, if_true, hlen]
  exact read_append rfl rest

/-- The type marks are below the array flag, so the flag is clear on a value's type and clears
back off an array's element type. -/
theorem KVValue.type_flag (v : KVValue) :
    v.type &&& BIN_KV_SERIALIZE_FLAG_ARRAY = 0 ∧
      (BIN_KV_SERIALIZE_FLAG_ARRAY ||| v.type) &&& BIN_KV_SERIALIZE_FLAG_ARRAY ≠ 0 ∧
      (BIN_KV_SERIALIZE_FLAG_ARRAY ||| v.type) &&& ~~~BIN_KV_SERIALIZE_FLAG_ARRAY = v.type := by
  cases v with
  | integer kind value => cases kind <;> simp only [KVValue.type] <;> decide
  | _ => simp only [KVValue.type]; decide

theorem int64OfBits_eq (kind : IntegerKind) (value : BitVec (8 * kind.width)) :
    int64OfBits kind.signed value =
      Int64.ofInt (if kind.signed then value.toInt else value.toNat) := by
  have hwidth : 8 * kind.width ≤ 64 := by cases kind <;> decide
  apply Int64.toInt_inj.1
  rw [int64OfBits, Int64.toInt_ofBitVec, Int64.toInt_ofInt]
  cases kind.signed
  · simp only [Bool.false_eq_true, if_false, BitVec.toInt_setWidth]
  · -- a signed value of at most 64 bits is its own remainder
    simp only [if_true, BitVec.toInt_signExtend_of_le hwidth]
    have hlow := BitVec.le_toInt value
    have hhigh := BitVec.toInt_lt (x := value)
    have hpow : (2 : ℤ) ^ (8 * kind.width - 1) ≤ 2 ^ 63 :=
      pow_le_pow_right₀ (by norm_num) (by omega)
    rw [Int.bmod_eq_of_le] <;> simp only [Int64.size] <;> omega

theorem readString_writeArraySize {value : List UInt8} (hlength : value.length ≤ 4611686018427387903) :
    ∃ size, writeArraySize value.length.toUInt64 = .ok size ∧
      ∀ rest, readString (size ++ value ++ rest) = .ok (value, rest) := by
  obtain ⟨size, hsize, hread⟩ := readVarint_length hlength
  refine ⟨size, hsize, fun rest => ?_⟩
  rw [readString, List.append_assoc, hread, ExceptRun.ok_bind]
  simp only [toNat_toUInt64_of_le hlength]
  exact read_append rfl rest

/-! ## `loadValue` on the type marks the writer writes -/

theorem loadValue_integer (fuel : ℕ) (kind : IntegerKind) (s : List UInt8) :
    loadValue (fuel + 1) kind.type s = readIntegerJson kind.width kind.signed s := by
  cases kind <;> rfl

theorem loadValue_double (fuel : ℕ) (s : List UInt8) :
    loadValue (fuel + 1) BIN_KV_SERIALIZE_TYPE_DOUBLE s = readDoubleJson s := rfl

theorem loadValue_string (fuel : ℕ) {s value rest : List UInt8}
    (h : readString s = .ok (value, rest)) :
    loadValue (fuel + 1) BIN_KV_SERIALIZE_TYPE_STRING s = .ok (.string (value.map toChar), rest) := by
  simp +decide only [loadValue, if_false, if_true, h, ExceptRun.map_ok]

theorem loadValue_object (fuel : ℕ) (s : List UInt8) :
    loadValue (fuel + 1) BIN_KV_SERIALIZE_TYPE_OBJECT s = loadSection fuel s := rfl

/-! ## The loader reads back what the writer writes

Each of the four loaders is shown to read back, from the tree's rank of fuel on, what the writer
writes of a value, a field, the fields of an object or the elements of an array. One lemma per
shape of value builds the fact for it from those for the values in it. -/

/-- `loadValue` reads back, as the value, what the writer writes of it as an element. -/
def LoadsValue (v : KVValue) : Prop :=
  ∃ bytes, v.elementBytes = .ok bytes ∧
    ∀ fuel, v.rank ≤ fuel → ∀ rest, loadValue fuel v.type (bytes ++ rest) = .ok (v.toJson, rest)

/-- `loadEntry` reads back what the writer writes of the field `name` after the name. -/
def LoadsEntry (v : KVValue) (name : List UInt8) : Prop :=
  ∃ bytes, v.entryBytes name = .ok (UInt8.ofNat name.length :: (name ++ bytes)) ∧
    ∀ fuel, v.rank < fuel → ∀ rest, loadEntry fuel (bytes ++ rest) = .ok (v.toJson, rest)

/-- `loadSectionLoop` reads back the fields, emplacing them into the map it has. -/
def LoadsFields (fields : List (List UInt8 × KVValue)) : Prop :=
  ∃ body, fieldsBytes fields = .ok body ∧
    ∀ fuel, fieldsRank fields ≤ fuel → ∀ name sec rest,
      loadSectionLoop fuel fields.length name sec (body ++ rest) =
        .ok (.object ((fieldsJson fields).foldl
          (fun sec entry => Common.emplaceEntry entry.1 entry.2 sec) sec), rest)

/-- `loadArrayLoop` reads back the elements after those it has. -/
def LoadsElements (type : UInt8) (elements : List KVValue) : Prop :=
  ∃ items, elementsBytes elements = .ok items ∧
    ∀ fuel, elementsRank elements ≤ fuel → ∀ arr rest,
      loadArrayLoop fuel type elements.length arr (items ++ rest) =
        .ok (.array (arr ++ elementsJson elements), rest)

theorem KVValue.IsScalar.type_ne {v : KVValue} (h : v.IsScalar) :
    v.type ≠ BIN_KV_SERIALIZE_TYPE_OBJECT ∧ v.type ≠ BIN_KV_SERIALIZE_TYPE_ARRAY := by
  cases v with
  | integer kind value => cases kind <;> simp only [KVValue.type] <;> decide
  | object fields => exact h.elim
  | array elements => exact h.elim
  | _ => simp only [KVValue.type]; decide

theorem loadsValue_scalar {v : KVValue} (hscalar : v.IsScalar) (hsizes : v.SizesFit) :
    LoadsValue v := by
  obtain ⟨hobject, harray⟩ := KVValue.IsScalar.type_ne hscalar
  rw [LoadsValue, KVBinaryOutputStreamSerializer.elementBytes_scalar hobject harray]
  cases v with
  | integer kind value =>
    refine ⟨_, rfl, fun fuel hfuel rest => ?_⟩
    obtain ⟨f, rfl⟩ : ∃ f, fuel = f + 1 := ⟨fuel - 1, by simp only [KVValue.rank] at hfuel; omega⟩
    rw [KVValue.type, loadValue_integer, readIntegerJson, read_append (Crypto.length_podBytes _),
      ExceptRun.ok_bind]
    simp only [Crypto.podOfBytes_podBytes, int64OfBits_eq, KVValue.toJson]
    rfl
  | double value =>
    refine ⟨_, rfl, fun fuel hfuel rest => ?_⟩
    obtain ⟨f, rfl⟩ : ∃ f, fuel = f + 1 := ⟨fuel - 1, by simp only [KVValue.rank] at hfuel; omega⟩
    rw [KVValue.type, loadValue_double, readDoubleJson, read_append (Crypto.length_podBytes _),
      ExceptRun.ok_bind]
    simp only [Crypto.podOfBytes_podBytes 8 value.toBitVec, KVValue.toJson]
    rfl
  | bool value =>
    refine ⟨_, rfl, fun fuel hfuel rest => ?_⟩
    obtain ⟨f, rfl⟩ : ∃ f, fuel = f + 1 := ⟨fuel - 1, by simp only [KVValue.rank] at hfuel; omega⟩
    cases value <;> rfl
  | string value =>
    obtain ⟨size, hsize, hread⟩ := readString_writeArraySize hsizes
    refine ⟨size ++ value, by rw [KVValue.scalarBytes, hsize]; rfl, fun fuel hfuel rest => ?_⟩
    obtain ⟨f, rfl⟩ : ∃ f, fuel = f + 1 := ⟨fuel - 1, by simp only [KVValue.rank] at hfuel; omega⟩
    rw [KVValue.type, loadValue_string f (hread rest)]
    rfl
  | binary value =>
    obtain ⟨size, hsize, hread⟩ := readString_writeArraySize hsizes
    refine ⟨size ++ value, by rw [KVValue.scalarBytes, hsize]; rfl, fun fuel hfuel rest => ?_⟩
    obtain ⟨f, rfl⟩ : ∃ f, fuel = f + 1 := ⟨fuel - 1, by simp only [KVValue.rank] at hfuel; omega⟩
    rw [KVValue.type, loadValue_string f (hread rest)]
    rfl
  | object fields => exact hscalar.elim
  | array elements => exact hscalar.elim

theorem map_fst_fieldsJson (fields : List (List UInt8 × KVValue)) :
    (fieldsJson fields).map Prod.fst = (fields.map Prod.fst).map (List.map toChar) := by
  induction fields with
  | nil => rfl
  | cons field fields ih =>
    obtain ⟨name, v⟩ := field
    simp only [fieldsJson, List.map_cons, ih]

theorem nodup_keys_fieldsJson {fields : List (List UInt8 × KVValue)}
    (hnames : (KVValue.object fields).NamesDistinct) : ((fieldsJson fields).map Prod.fst).Nodup := by
  rw [KVValue.NamesDistinct] at hnames
  rw [map_fst_fieldsJson]
  exact hnames.map (List.map_injective_iff.2 toChar_injective)

/-- An object: its field count, then its fields, emplaced into an empty map. -/
theorem loadValue_object_of_loadsFields {fields : List (List UInt8 × KVValue)}
    (hsize : (KVValue.object fields).SizesFit) (hfields : LoadsFields fields) :
    ∃ bytes, (KVValue.object fields).elementBytes = .ok bytes ∧
      ∀ fuel, (KVValue.object fields).rank ≤ fuel → ∀ rest,
        loadValue fuel BIN_KV_SERIALIZE_TYPE_OBJECT (bytes ++ rest) =
          .ok (.object ((fieldsJson fields).foldl
            (fun sec entry => Common.emplaceEntry entry.1 entry.2 sec) []), rest) := by
  rw [KVValue.SizesFit] at hsize
  obtain ⟨body, hbody, hloop⟩ := hfields
  obtain ⟨size, hsize', hread⟩ := readVarint_length hsize
  refine ⟨size ++ body, ?_, fun fuel hfuel rest => ?_⟩
  · simp only [KVValue.elementBytes, hbody, hsize', ExceptRun.ok_bind]
    rfl
  · rw [KVValue.rank] at hfuel
    obtain ⟨f, rfl⟩ : ∃ f, fuel = f + 2 := ⟨fuel - 2, by omega⟩
    rw [loadValue_object, loadSection, List.append_assoc, hread, ExceptRun.ok_bind]
    simp only [toNat_toUInt64_of_le hsize]
    exact hloop f (by omega) [] [] rest

/-- An object whose names are distinct: the map holds all of its fields, in key order. -/
theorem loadsValue_object {fields : List (List UInt8 × KVValue)}
    (hnames : (KVValue.object fields).NamesDistinct) (hsize : (KVValue.object fields).SizesFit)
    (hfields : LoadsFields fields) : LoadsValue (.object fields) := by
  obtain ⟨bytes, hbytes, hread⟩ := loadValue_object_of_loadsFields hsize hfields
  refine ⟨bytes, hbytes, fun fuel hfuel rest => ?_⟩
  rw [KVValue.type, hread fuel hfuel rest,
    foldl_emplaceEntry_eq_insertionSort (nodup_keys_fieldsJson hnames), KVValue.toJson]

/-- A field that is not an array: its type, then what `loadValue` reads. -/
theorem loadsEntry_of_loadsValue {v : KVValue} {name : List UInt8}
    (harray : v.type ≠ BIN_KV_SERIALIZE_TYPE_ARRAY) (hlength : name.length ≤ 255)
    (hv : LoadsValue v) : LoadsEntry v name := by
  obtain ⟨bytes, hbytes, hread⟩ := hv
  refine ⟨v.type :: bytes,
    KVBinaryOutputStreamSerializer.entryBytes_of_elementBytes harray hlength hbytes,
    fun fuel hfuel rest => ?_⟩
  obtain ⟨f, rfl⟩ : ∃ f, fuel = f + 1 := ⟨fuel - 1, by omega⟩
  -- the type byte has no array flag, so `loadEntry` hands it to `loadValue`
  rw [List.cons_append, loadEntry]
  simp only [readUInt8, ExceptRun.ok_bind, (KVValue.type_flag v).1, ne_eq, not_true_eq_false,
    if_false]
  exact hread f (by omega) rest

/-- An array field: its element type with the flag, its size, then what `loadArrayLoop` reads. -/
theorem loadsEntry_array {first : KVValue} {elements : List KVValue} {name : List UInt8}
    (hlength : name.length ≤ 255) (hsize : (KVValue.array (first :: elements)).SizesFit)
    (helements : LoadsElements first.type (first :: elements)) :
    LoadsEntry (.array (first :: elements)) name := by
  rw [KVValue.SizesFit] at hsize
  obtain ⟨items, hitems, hloop⟩ := helements
  obtain ⟨size, hsize', hread⟩ := readVarint_length hsize
  refine ⟨(BIN_KV_SERIALIZE_FLAG_ARRAY ||| first.type) :: (size ++ items), ?_,
    fun fuel hfuel rest => ?_⟩
  · simp only [KVValue.entryBytes, List.head?_cons, Option.map_some, Option.getD_some,
      arrayHeader, KVBinaryOutputStreamSerializer.writeElementName_of_le hlength, hsize', hitems,
      ExceptRun.ok_bind]
    simp
  · rw [KVValue.rank] at hfuel
    obtain ⟨f, rfl⟩ : ∃ f, fuel = f + 2 := ⟨fuel - 2, by omega⟩
    -- the flag sends `loadEntry` to `loadArray` with the element type
    obtain ⟨-, hflag, hclear⟩ := KVValue.type_flag first
    rw [List.cons_append, loadEntry]
    simp only [readUInt8, ExceptRun.ok_bind, ne_eq, hflag, not_false_eq_true, if_true, hclear]
    rw [loadArray, List.append_assoc, hread, ExceptRun.ok_bind]
    simp only [toNat_toUInt64_of_le hsize]
    rw [hloop f (by omega), List.nil_append, KVValue.toJson]

theorem loadsEntry_scalar {v : KVValue} {name : List UInt8} (hscalar : v.IsScalar)
    (hlength : name.length ≤ 255) (hsizes : v.SizesFit) : LoadsEntry v name :=
  loadsEntry_of_loadsValue (KVValue.IsScalar.type_ne hscalar).2 hlength
    (loadsValue_scalar hscalar hsizes)

theorem loadsFields_nil : LoadsFields [] := by
  refine ⟨[], rfl, fun fuel hfuel name sec rest => ?_⟩
  rw [fieldsRank] at hfuel
  obtain ⟨f, rfl⟩ : ∃ f, fuel = f + 1 := ⟨fuel - 1, by omega⟩
  rfl

/-- A field: its name, read back whole as it is not empty, then its entry, emplaced. -/
theorem loadsFields_cons {name : List UInt8} {v : KVValue} {fields : List (List UInt8 × KVValue)}
    (hname : name ≠ []) (hlength : name.length ≤ 255) (hv : LoadsEntry v name)
    (hfields : LoadsFields fields) : LoadsFields ((name, v) :: fields) := by
  obtain ⟨bytes, hentry, hload⟩ := hv
  obtain ⟨body, hbody, hloop⟩ := hfields
  refine ⟨UInt8.ofNat name.length :: (name ++ (bytes ++ body)), ?_,
    fun fuel hfuel previous sec rest => ?_⟩
  · simp only [fieldsBytes, hentry, hbody, ExceptRun.ok_bind]
    simp
  · rw [fieldsRank] at hfuel
    obtain ⟨f, rfl⟩ : ∃ f, fuel = f + 1 := ⟨fuel - 1, by omega⟩
    rw [List.length_cons, loadSectionLoop, List.cons_append, List.append_assoc, List.append_assoc,
      readName_writeElementName hname hlength, ExceptRun.ok_bind]
    simp only [hload f (by omega), ExceptRun.ok_bind, hloop f (by omega), fieldsJson,
      List.foldl_cons]

theorem loadsElements_nil (type : UInt8) : LoadsElements type [] := by
  refine ⟨[], rfl, fun fuel hfuel arr rest => ?_⟩
  rw [elementsRank] at hfuel
  obtain ⟨f, rfl⟩ : ∃ f, fuel = f + 1 := ⟨fuel - 1, by omega⟩
  rw [elementsJson, List.append_nil]
  rfl

/-- An element: its value, appended to the array, then the other elements. -/
theorem loadsElements_cons {type : UInt8} {v : KVValue} {elements : List KVValue}
    (htype : v.type = type) (hv : LoadsValue v) (helements : LoadsElements type elements) :
    LoadsElements type (v :: elements) := by
  subst htype
  obtain ⟨bytes, hbytes, hread⟩ := hv
  obtain ⟨items, hitems, hloop⟩ := helements
  refine ⟨bytes ++ items, ?_, fun fuel hfuel arr rest => ?_⟩
  · simp only [elementsBytes, hbytes, hitems, ExceptRun.ok_bind]
    rfl
  · rw [elementsRank] at hfuel
    obtain ⟨f, rfl⟩ : ∃ f, fuel = f + 1 := ⟨fuel - 1, by omega⟩
    rw [List.length_cons, loadArrayLoop, List.append_assoc, hread f (by omega), ExceptRun.ok_bind]
    simp only [hloop f (by omega), elementsJson, List.append_assoc, List.singleton_append]

mutual

/-- Every serializable value that is not an array, with distinct names and sizes that
fit, is read back by `loadValue`. The recursion follows the tree, through the fields of an object
and the elements of an array. -/
theorem loadsValue :
    ∀ (v : KVValue), v.Serializable → v.type ≠ BIN_KV_SERIALIZE_TYPE_ARRAY →
      v.Forall KVValue.NamesDistinct → v.Forall KVValue.SizesFit → LoadsValue v
  | .object fields, hv, _, ⟨hnames, hfieldsNames⟩, ⟨hsize, hfieldsSizes⟩ =>
    loadsValue_object hnames hsize (loadsFields fields hv hfieldsNames hfieldsSizes)
  | .array _, _, harray, _, _ => absurd rfl harray
  | .integer _ _, _, _, _, hsizes => loadsValue_scalar trivial hsizes
  | .double _, _, _, _, hsizes => loadsValue_scalar trivial hsizes
  | .bool _, _, _, _, hsizes => loadsValue_scalar trivial hsizes
  | .string _, _, _, _, hsizes => loadsValue_scalar trivial hsizes
  | .binary _, _, _, _, hsizes => loadsValue_scalar trivial hsizes

theorem loadsEntry :
    ∀ (v : KVValue) {name : List UInt8}, v.Serializable → name.length ≤ 255 →
      v.Forall KVValue.NamesDistinct → v.Forall KVValue.SizesFit → LoadsEntry v name
  | .object fields, _, hv, hlength, ⟨hnames, hfieldsNames⟩, ⟨hsize, hfieldsSizes⟩ =>
    loadsEntry_of_loadsValue (by simp only [KVValue.type]; decide) hlength
      (loadsValue_object hnames hsize (loadsFields fields hv hfieldsNames hfieldsSizes))
  | .array [], _, hv, _, _, _ => absurd hv id
  | .array (first :: elements), _, ⟨harray, helements⟩, hlength, ⟨_, hnames⟩, ⟨hsize, hsizes⟩ =>
    loadsEntry_array hlength hsize
      (loadsElements first.type (first :: elements) harray helements hnames hsizes)
  | .integer _ _, _, _, hlength, _, hsizes => loadsEntry_scalar trivial hlength hsizes
  | .double _, _, _, hlength, _, hsizes => loadsEntry_scalar trivial hlength hsizes
  | .bool _, _, _, hlength, _, hsizes => loadsEntry_scalar trivial hlength hsizes
  | .string _, _, _, hlength, _, hsizes => loadsEntry_scalar trivial hlength hsizes
  | .binary _, _, _, hlength, _, hsizes => loadsEntry_scalar trivial hlength hsizes

theorem loadsFields :
    ∀ (fields : List (List UInt8 × KVValue)), FieldsSerializable fields →
      FieldsForall KVValue.NamesDistinct fields → FieldsForall KVValue.SizesFit fields →
      LoadsFields fields
  | [], _, _, _ => loadsFields_nil
  | (_, v) :: fields, ⟨hname, hlength, hv, hfields⟩, ⟨hvNames, hnames⟩, ⟨hvSizes, hsizes⟩ =>
    loadsFields_cons hname hlength (loadsEntry v hv hlength hvNames hvSizes)
      (loadsFields fields hfields hnames hsizes)

theorem loadsElements :
    ∀ (type : UInt8) (elements : List KVValue), type ≠ BIN_KV_SERIALIZE_TYPE_ARRAY →
      ElementsSerializable type elements → ElementsForall KVValue.NamesDistinct elements →
      ElementsForall KVValue.SizesFit elements → LoadsElements type elements
  | type, [], _, _, _, _ => loadsElements_nil type
  | type, v :: elements, harray, ⟨htype, hv, helements⟩, ⟨hvNames, hnames⟩,
      ⟨hvSizes, hsizes⟩ =>
    loadsElements_cons htype (loadsValue v hv (htype ▸ harray) hvNames hvSizes)
      (loadsElements type elements harray helements hnames hsizes)

end

/-! ## The round trip -/

theorem parseBinary_header (fuel : ℕ) (s : List UInt8) :
    parseBinary fuel ((⟨PORTABLE_STORAGE_SIGNATUREA, PORTABLE_STORAGE_SIGNATUREB,
      PORTABLE_STORAGE_FORMAT_VER⟩ : KVBinaryStorageBlockHeader).bytes ++ s) =
      (·.1) <$> loadSection fuel s := by
  have hlength : (⟨PORTABLE_STORAGE_SIGNATUREA, PORTABLE_STORAGE_SIGNATUREB,
      PORTABLE_STORAGE_FORMAT_VER⟩ : KVBinaryStorageBlockHeader).bytes.length = 9 := rfl
  rw [parseBinary, read_append hlength, ExceptRun.ok_bind]
  rfl

open KVBinaryOutputStreamSerializer (run create dump) in
/-- What `dump` writes of a root whose fields `loadSectionLoop` reads back parses as the map the
loop builds of them. -/
theorem parseBinary_of_loadsFields {fields : List (List UInt8 × KVValue)}
    (hfields : FieldsSerializable fields) (hsize : (KVValue.object fields).SizesFit)
    (hloads : LoadsFields fields) :
    ∃ bytes, (run create (fieldsCalls fields) >>= dump) = .ok bytes ∧
      ∀ fuel, (KVValue.object fields).rank ≤ fuel →
        parseBinary fuel bytes = .ok (.object ((fieldsJson fields).foldl
          (fun sec entry => Common.emplaceEntry entry.1 entry.2 sec) [])) := by
  obtain ⟨bytes, hbytes, hread⟩ := loadValue_object_of_loadsFields hsize hloads
  refine ⟨_, by rw [KVBinaryOutputStreamSerializer.dump_run_fieldsCalls hfields, hbytes]; rfl,
    fun fuel hfuel => ?_⟩
  -- `parseBinary` calls `loadSection` itself, one round below `loadValue`
  have hsection := hread (fuel + 1) (by omega) []
  rw [List.append_nil, loadValue_object] at hsection
  rw [parseBinary_header, hsection]
  rfl

open KVBinaryOutputStreamSerializer (run create dump) in
/-- The bytes of a root whose objects have distinct names, and whose sizes fit, parse back as the
tree's value. -/
theorem parseBinary_dump {fields : List (List UInt8 × KVValue)}
    (hfields : FieldsSerializable fields)
    (hnames : (KVValue.object fields).Forall KVValue.NamesDistinct)
    (hsizes : (KVValue.object fields).Forall KVValue.SizesFit) :
    ∃ bytes, (run create (fieldsCalls fields) >>= dump) = .ok bytes ∧
      ∀ fuel, (KVValue.object fields).rank ≤ fuel →
        parseBinary fuel bytes = .ok (KVValue.object fields).toJson := by
  obtain ⟨hrootNames, hfieldsNames⟩ := hnames
  obtain ⟨hrootSize, hfieldsSizes⟩ := hsizes
  obtain ⟨bytes, hdump, hparse⟩ := parseBinary_of_loadsFields hfields hrootSize
    (loadsFields fields hfields hfieldsNames hfieldsSizes)
  refine ⟨bytes, hdump, fun fuel hfuel => ?_⟩
  rw [hparse fuel hfuel, foldl_emplaceEntry_eq_insertionSort (nodup_keys_fieldsJson hrootNames),
    KVValue.toJson]

open KVBinaryOutputStreamSerializer (run create dump) in
theorem kvBinary_roundtrip :
    (∀ fields : List (List UInt8 × KVValue), FieldsSerializable fields →
      (KVValue.object fields).Forall KVValue.NamesDistinct →
      (KVValue.object fields).Forall KVValue.SizesFit →
      ∃ bytes, (run create (fieldsCalls fields) >>= dump) = .ok bytes ∧
        ∀ fuel, (KVValue.object fields).rank ≤ fuel →
          parseBinary fuel bytes = .ok (KVValue.object fields).toJson) ∧
    ∀ n : UInt64, n ≤ 4611686018427387903 →
      ∃ bytes, writeArraySize n = .ok bytes ∧ ∀ rest, readVarint (bytes ++ rest) = .ok (n, rest) :=
  ⟨fun _ hfields hnames hsizes => parseBinary_dump hfields hnames hsizes,
    fun _ hn => readVarint_writeArraySize hn⟩

/-- A root holding an object `a` with the string `b`, and an array `c` of two `uint8_t`. -/
def nestedFields : List (List UInt8 × KVValue) :=
  [([97], .object [([98], .string [1])]), ([99], .array [.integer .uint8 1, .integer .uint8 2])]

open KVBinaryOutputStreamSerializer (run create dump) in
theorem kvBinary_roundtrip_nestedFields :
    (∃ bytes, (run create (fieldsCalls nestedFields) >>= dump) = .ok bytes ∧
      ∀ fuel, (KVValue.object nestedFields).rank ≤ fuel →
        parseBinary fuel bytes = .ok (KVValue.object nestedFields).toJson) ∧
    ∃ bytes, writeArraySize 300 = .ok bytes ∧ ∀ rest, readVarint (bytes ++ rest) = .ok (300, rest) := by
  have hserializable : FieldsSerializable nestedFields := by
    simp only [nestedFields, FieldsSerializable, KVValue.Serializable, ElementsSerializable,
      KVValue.type]
    decide
  have hnames : (KVValue.object nestedFields).Forall KVValue.NamesDistinct := by
    simp [nestedFields, KVValue.Forall, FieldsForall, ElementsForall, KVValue.NamesDistinct]
  have hsizes : (KVValue.object nestedFields).Forall KVValue.SizesFit := by
    simp [nestedFields, KVValue.Forall, FieldsForall, ElementsForall, KVValue.SizesFit]
  exact ⟨kvBinary_roundtrip.1 nestedFields hserializable hnames hsizes,
    kvBinary_roundtrip.2 300 (by decide)⟩

/-- A root with two fields named `a`, a `uint8_t` `1` and then a `uint8_t` `2`. -/
def repeatedName : List (List UInt8 × KVValue) :=
  [([97], .integer .uint8 1), ([97], .integer .uint8 2)]

open KVBinaryOutputStreamSerializer (run create dump) in
/-- Two fields of one name: the bytes parse, to a map that keeps the first field only, where the
tree has both. -/
theorem parseBinary_dump_repeatedName :
    ∃ bytes, (run create (fieldsCalls repeatedName) >>= dump) = .ok bytes ∧
      ∀ fuel, (KVValue.object repeatedName).rank ≤ fuel →
        parseBinary fuel bytes = .ok (.object [(['a'], .integer 1)]) ∧
        parseBinary fuel bytes ≠ .ok (KVValue.object repeatedName).toJson := by
  have hentry : LoadsEntry (.integer .uint8 1) [97] ∧ LoadsEntry (.integer .uint8 2) [97] :=
    ⟨loadsEntry_scalar trivial (by decide) trivial, loadsEntry_scalar trivial (by decide) trivial⟩
  have hloads : LoadsFields repeatedName :=
    loadsFields_cons (by decide) (by decide) hentry.1
      (loadsFields_cons (by decide) (by decide) hentry.2 loadsFields_nil)
  have hfields : FieldsSerializable repeatedName := by
    unfold repeatedName
    exact ⟨by decide, by decide, trivial, by decide, by decide, trivial, trivial⟩
  obtain ⟨bytes, hdump, hparse⟩ := parseBinary_of_loadsFields hfields
    (by simp [repeatedName, KVValue.SizesFit]) hloads
  refine ⟨bytes, hdump, fun fuel hfuel => ?_⟩
  -- `emplace` keeps the first `a`, where the tree's value has both fields under the one key
  have hmap : (fieldsJson repeatedName).foldl
      (fun sec entry => Common.emplaceEntry entry.1 entry.2 sec) [] = [(['a'], .integer 1)] := rfl
  have htoJson : (KVValue.object repeatedName).toJson =
      .object [(['a'], .integer 1), (['a'], .integer 2)] := rfl
  rw [hparse fuel hfuel, hmap, htoJson]
  refine ⟨rfl, ?_⟩
  simp

end KVBinaryInputStreamSerializer

end CryptoNote
