import Mathlib.Data.List.Basic

/-! `StringTools.cpp`: the hex reader, and the two views of a byte string. A `std::string` is
modelled as its characters, each standing for one byte: `asString` reads bytes as characters
and `asBinaryArray` characters as bytes, inverse to each other on characters below 256.
`podFromHex` accepts exactly the texts of twice the value's size made of hex digits
(`podFromHex_isSome_iff`). -/

namespace Common

/-- `asString(data)`: each byte as the character of its code. -/
def asString (data : List UInt8) : List Char :=
  data.map fun byte => Char.ofNat byte.toNat

/-- `asBinaryArray(text)`: each character as its byte. -/
def asBinaryArray (text : List Char) : List UInt8 :=
  text.map fun character => character.toNat.toUInt8

/-- `characterValues[static_cast<unsigned char>(character)]`: the value of a hex digit, `0xff`
for every other character. -/
def characterValue (character : Char) : UInt8 :=
  if '0' ≤ character ∧ character ≤ '9' then (character.toNat - '0'.toNat).toUInt8
  else if 'A' ≤ character ∧ character ≤ 'F' then (character.toNat - 'A'.toNat + 10).toUInt8
  else if 'a' ≤ character ∧ character ≤ 'f' then (character.toNat - 'a'.toNat + 10).toUInt8
  else 0xff

/-- `fromHex(character, value)`: the value of a hex digit, `none` where it returns false. -/
def fromHexChar (character : Char) : Option UInt8 :=
  if characterValue character > 0x0f then none else some (characterValue character)

/-- The loop of `fromHex(text, data, bufferSize, size)`, two digits to a byte. -/
def fromHexPairs : List Char → Option (List UInt8)
  | c1 :: c2 :: text => do
    let value1 ← fromHexChar c1
    let value2 ← fromHexChar c2
    ((value1 <<< 4 ||| value2) :: ·) <$> fromHexPairs text
  | _ => some []

/-- `fromHex(text, data, bufferSize, size)`: the bytes written, `none` where it returns
false. -/
def fromHex (text : List Char) (bufferSize : ℕ) : Option (List UInt8) :=
  if text.length % 2 ≠ 0 then none
  else if text.length / 2 > bufferSize then none
  else fromHexPairs text

/-- `podFromHex(text, val)` for a value of `width` bytes: its bytes, `none` where it returns
false. -/
def podFromHex (width : ℕ) (text : List Char) : Option (List UInt8) :=
  (fromHex text width).filter fun data => data.length = width

/-- The bytes the loop of `fromHex(text, data, bufferSize, size)` writes before it stops: one for
each leading pair of hex digits. -/
def fromHexWritten : List Char → List UInt8
  | c1 :: c2 :: text =>
    match fromHexChar c1, fromHexChar c2 with
    | some value1, some value2 => (value1 <<< 4 ||| value2) :: fromHexWritten text
    | _, _ => []
  | _ => []

/-- The memory of a value that held `bytes`, after `podFromHex(text, val)`: the bytes the loop
wrote, over the ones it held, whether or not the call returns true. -/
def podFromHexInto (text : List Char) (bytes : List UInt8) : List UInt8 :=
  if text.length % 2 ≠ 0 ∨ text.length / 2 > bytes.length then bytes
  else
    let written := fromHexWritten text
    written ++ bytes.drop written.length

/-! ## Bytes as text -/

theorem toNat_ofNat_byte (byte : UInt8) : (Char.ofNat byte.toNat).toNat = byte.toNat := by
  have hvalid : byte.toNat.isValidChar := Or.inl (by have := byte.toNat_lt; omega)
  rw [Char.ofNat, dif_pos hvalid]
  rfl

@[simp] theorem asBinaryArray_asString (data : List UInt8) :
    asBinaryArray (asString data) = data := by
  rw [asBinaryArray, asString, List.map_map]
  conv_rhs => rw [← List.map_id data]
  refine List.map_congr_left fun byte _ => ?_
  simp only [Function.comp_apply, toNat_ofNat_byte, UInt8.ofNat_toNat, id]

theorem asString_asBinaryArray {text : List Char} (h : ∀ c ∈ text, c.toNat < 256) :
    asString (asBinaryArray text) = text := by
  rw [asBinaryArray, asString, List.map_map]
  conv_rhs => rw [← List.map_id text]
  refine List.map_congr_left fun c hc => ?_
  simp [Nat.mod_eq_of_lt (h c hc)]

@[simp] theorem length_asString (data : List UInt8) : (asString data).length = data.length :=
  List.length_map _

@[simp] theorem length_asBinaryArray (text : List Char) :
    (asBinaryArray text).length = text.length :=
  List.length_map _

/-! ## Hex digits -/

/-- Pairs of hex digits read as as many bytes. -/
theorem fromHexPairs_isSome :
    ∀ (text : List Char), text.length % 2 = 0 → (∀ c ∈ text, (fromHexChar c).isSome) →
      ∃ data, fromHexPairs text = some data ∧ data.length = text.length / 2
  | c1 :: c2 :: text => fun hlen hhex => by
    obtain ⟨value1, h1⟩ := Option.isSome_iff_exists.1 (hhex c1 (by simp))
    obtain ⟨value2, h2⟩ := Option.isSome_iff_exists.1 (hhex c2 (by simp))
    obtain ⟨data, hdata, hlength⟩ := fromHexPairs_isSome text
      (by simp only [List.length_cons] at hlen; omega)
      (fun c hc => hhex c (by simp [hc]))
    refine ⟨(value1 <<< 4 ||| value2) :: data, ?_, ?_⟩
    · simp [fromHexPairs, h1, h2, hdata]
    · simp only [List.length_cons, hlength]
      omega
  | [] => fun _ _ => ⟨[], rfl, rfl⟩
  | [_] => fun hlen _ => by simp at hlen

theorem fromHexPairs_eq_none :
    ∀ (text : List Char), text.length % 2 = 0 → (∃ c ∈ text, fromHexChar c = none) →
      fromHexPairs text = none
  | c1 :: c2 :: text => fun hlen ⟨c, hc, hnone⟩ => by
    rw [fromHexPairs]
    cases h1 : fromHexChar c1 with
    | none => rfl
    | some value1 =>
      cases h2 : fromHexChar c2 with
      | none => rfl
      | some value2 =>
        have hrest : fromHexPairs text = none := by
          refine fromHexPairs_eq_none text (by simp only [List.length_cons] at hlen; omega)
            ⟨c, ?_, hnone⟩
          rcases List.mem_cons.1 hc with rfl | hc
          · simp [h1] at hnone
          rcases List.mem_cons.1 hc with rfl | hc
          · simp [h2] at hnone
          exact hc
        simp [hrest]
  | [] => fun _ ⟨_, hc, _⟩ => by simp at hc
  | [_] => fun hlen _ => by simp at hlen

theorem podFromHex_isSome_iff {width : ℕ} {text : List Char} :
    (podFromHex width text).isSome ↔
      text.length = 2 * width ∧ ∀ c ∈ text, (fromHexChar c).isSome := by
  constructor
  · intro h
    obtain ⟨data, hdata⟩ := Option.isSome_iff_exists.1 h
    obtain ⟨hfrom, hwidth⟩ := Option.filter_eq_some_iff.1 hdata
    rw [fromHex] at hfrom
    split_ifs at hfrom with hodd hlong
    have hhex : ∀ c ∈ text, (fromHexChar c).isSome := by
      intro c hc
      by_contra hnone
      rw [fromHexPairs_eq_none text (by omega) ⟨c, hc, Option.not_isSome_iff_eq_none.1 hnone⟩]
        at hfrom
      exact absurd hfrom (by simp)
    obtain ⟨data', hdata', hlength⟩ := fromHexPairs_isSome text (by omega) hhex
    rw [hdata', Option.some.injEq] at hfrom
    subst hfrom
    simp only [decide_eq_true_eq] at hwidth
    exact ⟨by omega, hhex⟩
  · rintro ⟨hlen, hhex⟩
    obtain ⟨data, hdata, hlength⟩ := fromHexPairs_isSome text (by omega) hhex
    have hfrom : fromHex text width = some data := by
      rw [fromHex, if_neg (by omega), if_neg (by omega), hdata]
    rw [podFromHex, hfrom]
    simp [hlength, hlen]

theorem fromHexWritten_of_fromHexPairs :
    ∀ {text : List Char} {data : List UInt8}, fromHexPairs text = some data →
      fromHexWritten text = data
  | c1 :: c2 :: text, data, h => by
    simp only [fromHexPairs, Option.bind_eq_bind, Option.bind_eq_some_iff, Option.map_eq_map,
      Option.map_eq_some_iff] at h
    obtain ⟨value1, h1, value2, h2, rest, hrest, rfl⟩ := h
    rw [fromHexWritten, h1, h2, fromHexWritten_of_fromHexPairs hrest]
  | [], _, h | [_], _, h => by
    cases h
    rfl

theorem podFromHexInto_of_podFromHex {text : List Char} {bytes data : List UInt8}
    (h : podFromHex bytes.length text = some data) : podFromHexInto text bytes = data := by
  obtain ⟨hfrom, hwidth⟩ := Option.filter_eq_some_iff.1 h
  simp only [decide_eq_true_eq] at hwidth
  rw [fromHex] at hfrom
  split_ifs at hfrom with hodd hlong
  rw [podFromHexInto, if_neg (not_or.2 ⟨hodd, hlong⟩)]
  dsimp only
  rw [fromHexWritten_of_fromHexPairs hfrom, hwidth, List.drop_length, List.append_nil]

end Common
