import Traaitt.Library.Radix
import Traaitt.Common.Varint
import Traaitt.CryptoNote.Pod

/-! `Base58.cpp`: the block codec of addresses. Data is cut into blocks of eight bytes and a
shorter last block; a block of `k` bytes is read as a big-endian number and written as
`encoded_block_sizes[k]` base-58 digits, most significant first. Decoding reverses each block,
refusing characters outside the alphabet, block sizes no block encodes to, and values that do
not fit the block's bytes. `encode_addr` puts a varint tag before the data and four bytes of
`cn_fast_hash` after it; `decode_addr` checks them. -/

namespace Tools.Base58

def alphabet : List Char :=
  "123456789ABCDEFGHJKLMNPQRSTUVWXYZabcdefghijkmnopqrstuvwxyz".toList

def alphabetSize : ℕ := alphabet.length

def encodedBlockSizes : List ℕ := [0, 2, 3, 5, 6, 7, 9, 10, 11]

def fullBlockSize : ℕ := encodedBlockSizes.length - 1

def fullEncodedBlockSize : ℕ := encodedBlockSizes.getD fullBlockSize 0

def addrChecksumSize : ℕ := 4

/-- `reverse_alphabet`: the digit of a character, `none` for the table's `-1`. -/
def reverseAlphabet (letter : Char) : Option ℕ :=
  alphabet.idxOf? letter

/-- `decoded_block_sizes`: the byte count of a block of `encodedBlockSize` characters, `none`
for the table's `-1`. -/
def decodedBlockSizes (encodedBlockSize : ℕ) : Option ℕ :=
  encodedBlockSizes.idxOf? encodedBlockSize

/-- `uint_8be_to_64`: the bytes of a block as a big-endian number. -/
def uint8beTo64 (data : List UInt8) : ℕ :=
  data.foldl (fun res byte => (res <<< 8) ||| byte.toNat) 0

/-- `uint_64_to_8be`: the low `size` bytes of `num`, most significant first. -/
def uint64To8be (num size : ℕ) : List UInt8 :=
  (Radix.leBytes size num).reverse

/-- The digits `encode_block` writes from the right end of its `width` characters back: it
stops when `num` reaches zero, and the characters it does not write keep `alphabet[0]`,
the digit zero. -/
def encodeBlockDigits : ℕ → ℕ → List ℕ
  | 0, _ => []
  | width + 1, num =>
    if 0 < num then num % alphabetSize :: encodeBlockDigits width (num / alphabetSize)
    else List.replicate (width + 1) 0

def encodeBlock (block : List UInt8) : List Char :=
  let num := uint8beTo64 block
  let width := encodedBlockSizes.getD block.length 0
  ((encodeBlockDigits width num).map fun remainder => alphabet.getD remainder '1').reverse

/-- The loop of `decode_block`, over the characters from the last, with `order = 58 ^ k` at
the `k`-th. It fails on a character outside the alphabet, and when the sum leaves 64 bits: the
high half of the 128-bit product, or the carry of the addition. `order` never overflows where
it is used, since `58 ^ 10 < 2 ^ 64`. -/
def decodeBlockLoop : List Char → ℕ → ℕ → Option ℕ
  | [], resNum, _ => some resNum
  | letter :: rest, resNum, order =>
    (reverseAlphabet letter).bind fun digit =>
      if 2 ^ 64 ≤ order * digit ∨ 2 ^ 64 ≤ resNum + order * digit then none
      else decodeBlockLoop rest (resNum + order * digit) (order * alphabetSize)

def decodeBlock (block : List Char) : Option (List UInt8) :=
  (decodedBlockSizes block.length).bind fun resSize =>
    if resSize = 0 then none
    else
      (decodeBlockLoop block.reverse 0 1).bind fun resNum =>
        if resSize < fullBlockSize ∧ 1 <<< (8 * resSize) ≤ resNum then none
        else some (uint64To8be resNum resSize)

/-- The loop of `encode` over its `count` full blocks. -/
def encodeFullBlocks : ℕ → List UInt8 → List Char
  | 0, _ => []
  | count + 1, data =>
    encodeBlock (data.take fullBlockSize) ++ encodeFullBlocks count (data.drop fullBlockSize)

def encode (data : List UInt8) : List Char :=
  if data = [] then []
  else
    let fullBlockCount := data.length / fullBlockSize
    let lastBlockSize := data.length % fullBlockSize
    encodeFullBlocks fullBlockCount data ++
      if 0 < lastBlockSize then encodeBlock (data.drop (fullBlockCount * fullBlockSize))
      else []

/-- The loop of `decode` over its `count` full blocks. -/
def decodeFullBlocks : ℕ → List Char → Option (List UInt8)
  | 0, _ => some []
  | count + 1, enc =>
    (decodeBlock (enc.take fullEncodedBlockSize)).bind fun block =>
      (decodeFullBlocks count (enc.drop fullEncodedBlockSize)).map (block ++ ·)

def decode (enc : List Char) : Option (List UInt8) :=
  if enc = [] then some []
  else
    let fullBlockCount := enc.length / fullEncodedBlockSize
    let lastBlockSize := enc.length % fullEncodedBlockSize
    (decodedBlockSizes lastBlockSize).bind fun _ =>
      (decodeFullBlocks fullBlockCount enc).bind fun full =>
        if 0 < lastBlockSize then
          (decodeBlock (enc.drop (fullBlockCount * fullEncodedBlockSize))).map (full ++ ·)
        else some full

/-! ## The tables -/

theorem alphabetSize_eq : alphabetSize = 58 := by decide

theorem fullBlockSize_eq : fullBlockSize = 8 := by decide

theorem fullEncodedBlockSize_eq : fullEncodedBlockSize = 11 := by decide

/-- Each block size encodes to a size that decodes back to it, with room for every value of
its bytes; only the full block takes eleven characters. -/
theorem encodedBlockSizes_spec : ∀ k : Fin 9,
    decodedBlockSizes (encodedBlockSizes.getD k 0) = some k.val ∧
      256 ^ k.val ≤ alphabetSize ^ encodedBlockSizes.getD k 0 ∧
      (encodedBlockSizes.getD k 0 < fullEncodedBlockSize ↔ k.val < fullBlockSize) ∧
      (0 < encodedBlockSizes.getD k 0 ↔ 0 < k.val) := by
  decide

theorem decodedBlockSizes_full : decodedBlockSizes fullEncodedBlockSize = some fullBlockSize := by
  decide

theorem decodedBlockSizes_eq_some {size k : ℕ} (h : decodedBlockSizes size = some k) :
    k < encodedBlockSizes.length ∧ encodedBlockSizes.getD k 0 = size := by
  obtain ⟨hk, hget, -⟩ := List.idxOf?_eq_some_iff.1 h
  exact ⟨hk, by rw [List.getD_eq_getElem _ _ hk, hget]⟩

theorem reverseAlphabet_getD {d : ℕ} (hd : d < alphabetSize) :
    reverseAlphabet (alphabet.getD d '1') = some d := by
  have key : ∀ i : Fin 58, reverseAlphabet (alphabet.getD i '1') = some i := by decide
  exact key ⟨d, by rwa [alphabetSize_eq] at hd⟩

theorem getD_of_reverseAlphabet {letter : Char} {d : ℕ} (h : reverseAlphabet letter = some d) :
    d < alphabetSize ∧ alphabet.getD d '1' = letter := by
  obtain ⟨hd, hget, -⟩ := List.idxOf?_eq_some_iff.1 h
  exact ⟨hd, by rw [List.getD_eq_getElem _ _ hd, hget]⟩

/-! ## Blocks -/

theorem uint8beTo64_eq (data : List UInt8) : uint8beTo64 data = Radix.ofLeBytes data.reverse := by
  -- the fold shifts the bytes read so far up by one byte at each step
  have step : ∀ (acc : ℕ) (bytes : List UInt8),
      bytes.foldl (fun res byte => (res <<< 8) ||| byte.toNat) acc =
        acc * 256 ^ bytes.length + Radix.ofLeBytes bytes.reverse := by
    intro acc bytes
    induction bytes generalizing acc with
    | nil => simp [Radix.ofLeBytes]
    | cons b bytes ih =>
      have hor : (acc <<< 8) ||| b.toNat = acc * 256 + b.toNat := by
        rw [Nat.shiftLeft_eq, Nat.mul_comm, ← Nat.two_pow_add_eq_or_of_lt b.toNat_lt]
      rw [List.foldl_cons, hor, ih, List.reverse_cons, Radix.ofLeBytes_append,
        Radix.ofLeBytes_singleton, List.length_reverse, List.length_cons, pow_succ]
      ring
  rw [uint8beTo64, step, Nat.zero_mul, Nat.zero_add]

theorem encodeBlockDigits_eq (width num : ℕ) :
    encodeBlockDigits width num = Radix.digits alphabetSize width num := by
  induction width generalizing num with
  | zero => rfl
  | succ width ih =>
    rw [encodeBlockDigits]
    split
    · rw [ih, Radix.digits_succ]
    · -- the characters left as `alphabet[0]` are the zero digits of a zero number
      have hzero : num = 0 := by omega
      subst hzero
      have zeros : ∀ w, Radix.digits alphabetSize w 0 = List.replicate w 0 := by
        intro w
        induction w with
        | zero => rfl
        | succ w ihw => rw [Radix.digits_succ, Nat.zero_mod, Nat.zero_div, ihw]; rfl
      rw [zeros]

theorem length_encodeBlock (block : List UInt8) :
    (encodeBlock block).length = encodedBlockSizes.getD block.length 0 := by
  simp [encodeBlock, encodeBlockDigits_eq]

/-- The loop reads the characters of digits back as their value, while it fits 64 bits. -/
theorem decodeBlockLoop_digits {ds : List ℕ} (hds : ∀ d ∈ ds, d < alphabetSize) :
    ∀ {resNum k : ℕ}, resNum + alphabetSize ^ k * Nat.ofDigits alphabetSize ds < 2 ^ 64 →
      decodeBlockLoop (ds.map (alphabet.getD · '1')) resNum (alphabetSize ^ k) =
        some (resNum + alphabetSize ^ k * Nat.ofDigits alphabetSize ds) := by
  induction ds with
  | nil => intro resNum k _; simp [decodeBlockLoop]
  | cons d ds ih =>
    intro resNum k hfit
    have hd := hds d List.mem_cons_self
    have hsum : resNum + alphabetSize ^ k * Nat.ofDigits alphabetSize (d :: ds) =
        resNum + alphabetSize ^ k * d +
          alphabetSize ^ (k + 1) * Nat.ofDigits alphabetSize ds := by
      rw [Nat.ofDigits_cons, pow_succ]
      ring
    rw [hsum] at hfit ⊢
    have hnot : ¬(2 ^ 64 ≤ alphabetSize ^ k * d ∨ 2 ^ 64 ≤ resNum + alphabetSize ^ k * d) := by
      omega
    rw [List.map_cons, decodeBlockLoop, reverseAlphabet_getD hd, Option.bind_some, if_neg hnot,
      ← pow_succ, ih (fun x hx => hds x (List.mem_cons_of_mem d hx)) hfit]

theorem decodeBlockLoop_eq_some {letters : List Char} :
    ∀ {resNum k v : ℕ}, resNum < 2 ^ 64 →
      decodeBlockLoop letters resNum (alphabetSize ^ k) = some v →
      ∃ ds, letters = ds.map (alphabet.getD · '1') ∧ (∀ d ∈ ds, d < alphabetSize) ∧
        v = resNum + alphabetSize ^ k * Nat.ofDigits alphabetSize ds ∧ v < 2 ^ 64 := by
  induction letters with
  | nil =>
    intro resNum k v hres h
    cases h
    exact ⟨[], rfl, by simp, by simp, hres⟩
  | cons letter letters ih =>
    intro resNum k v hres h
    obtain ⟨d, hdigit, h⟩ := Option.bind_eq_some_iff.1 h
    obtain ⟨hd, hchar⟩ := getD_of_reverseAlphabet hdigit
    split_ifs at h with hover
    rw [← pow_succ] at h
    obtain ⟨ds, rfl, hds, rfl, hv⟩ := ih (by omega) h
    refine ⟨d :: ds, by rw [List.map_cons, hchar], ?_, ?_, hv⟩
    · intro x hx
      rcases List.mem_cons.1 hx with rfl | hx
      · exact hd
      · exact hds x hx
    · rw [Nat.ofDigits_cons, pow_succ]
      ring

theorem decodeBlock_encodeBlock {block : List UInt8} (hpos : 0 < block.length)
    (hle : block.length ≤ fullBlockSize) :
    decodeBlock (encodeBlock block) = some block := by
  rw [fullBlockSize_eq] at hle
  obtain ⟨hsize, hroom, -, -⟩ := encodedBlockSizes_spec ⟨block.length, by omega⟩
  simp only at hsize hroom
  set num := uint8beTo64 block with hnum
  have hlt : num < 256 ^ block.length := by
    rw [hnum, uint8beTo64_eq, ← List.length_reverse]
    exact Radix.ofLeBytes_lt _
  have h64 : num < 2 ^ 64 :=
    lt_of_lt_of_le hlt ((Nat.pow_le_pow_right (by norm_num) hle).trans (by norm_num))
  have hdigits : ∀ d ∈ Radix.digits alphabetSize (encodedBlockSizes.getD block.length 0) num,
      d < alphabetSize := fun d hd => Radix.lt_of_mem_digits (by rw [alphabetSize_eq]; norm_num) hd
  have hvalue := Radix.ofDigits_digits_of_lt (lt_of_lt_of_le hlt hroom)
  have hloop := @decodeBlockLoop_digits _ hdigits 0 0 (by rw [hvalue]; simpa using h64)
  rw [hvalue, pow_zero, Nat.one_mul, Nat.zero_add] at hloop
  have hrange : ¬(block.length < fullBlockSize ∧ 1 <<< (8 * block.length) ≤ num) := by
    rintro ⟨-, hle'⟩
    rw [Nat.one_shiftLeft, pow_mul] at hle'
    exact absurd hlt (not_lt.2 hle')
  have hbytes : Radix.leBytes block.length num = block.reverse := by
    rw [hnum, uint8beTo64_eq, show block.length = block.reverse.length from
      List.length_reverse.symm, Radix.leBytes_ofLeBytes]
  rw [decodeBlock, length_encodeBlock, hsize, Option.bind_some, if_neg (by omega), encodeBlock,
    List.reverse_reverse, ← hnum, encodeBlockDigits_eq, hloop, Option.bind_some, if_neg hrange,
    uint64To8be, hbytes, List.reverse_reverse]

/-- A block that decodes is the encoding of what it decodes to, and its size decodes to the
byte count. -/
theorem encodeBlock_of_decodeBlock {block : List Char} {data : List UInt8}
    (h : decodeBlock block = some data) :
    0 < data.length ∧ decodedBlockSizes block.length = some data.length ∧
      encodeBlock data = block := by
  obtain ⟨k, hk, h⟩ := Option.bind_eq_some_iff.1 h
  split_ifs at h with hk0
  obtain ⟨v, hv, h⟩ := Option.bind_eq_some_iff.1 h
  split_ifs at h with hrange
  cases h
  obtain ⟨hklen, hsize⟩ := decodedBlockSizes_eq_some hk
  obtain ⟨ds, hletters, hds, hvalue, hv64⟩ :=
    @decodeBlockLoop_eq_some block.reverse 0 0 v (by norm_num) (by rwa [pow_zero])
  rw [pow_zero, Nat.one_mul, Nat.zero_add] at hvalue
  -- the range check and the 64-bit bound keep the value inside the block's bytes
  have hlt : v < 256 ^ k := by
    by_cases hfull : k < fullBlockSize
    · rw [Nat.one_shiftLeft, pow_mul] at hrange
      exact Nat.lt_of_not_le fun hle => hrange ⟨hfull, hle⟩
    · have hk8 : k = 8 := by
        rw [fullBlockSize_eq] at hfull
        exact le_antisymm (by simpa [encodedBlockSizes] using Nat.lt_succ_iff.1 hklen) (by omega)
      subst hk8
      simpa using hv64
  have hlen : (uint64To8be v k).length = k := by simp [uint64To8be]
  have hnum : uint8beTo64 (uint64To8be v k) = v := by
    rw [uint8beTo64_eq, uint64To8be, List.reverse_reverse, Radix.ofLeBytes_leBytes,
      Nat.mod_eq_of_lt hlt]
  have hwidth : encodedBlockSizes.getD k 0 = ds.length := by
    rw [hsize, ← List.length_reverse, hletters, List.length_map]
  refine ⟨by omega, by rw [hlen]; exact hk, ?_⟩
  rw [encodeBlock, hlen, hnum, hwidth, encodeBlockDigits_eq, hvalue, Radix.digits_ofDigits hds,
    ← hletters, List.reverse_reverse]

/-! ## Whole strings -/

theorem length_encodeFullBlocks :
    ∀ (count : ℕ) (data : List UInt8), count * fullBlockSize ≤ data.length →
      (encodeFullBlocks count data).length = count * fullEncodedBlockSize
  | 0, _, _ => rfl
  | count + 1, data, h => by
    rw [fullBlockSize_eq] at h
    have hblock : (encodeBlock (data.take fullBlockSize)).length = fullEncodedBlockSize := by
      rw [length_encodeBlock, List.length_take, fullBlockSize_eq, Nat.min_eq_left (by omega)]
      rfl
    rw [encodeFullBlocks, List.length_append, hblock,
      length_encodeFullBlocks count _ (by rw [List.length_drop, fullBlockSize_eq]; omega)]
    ring

/-- The full blocks decode back from their encoding, whatever follows them. -/
theorem decodeFullBlocks_encodeFullBlocks (rest : List Char) :
    ∀ (count : ℕ) (data : List UInt8), count * fullBlockSize ≤ data.length →
      decodeFullBlocks count (encodeFullBlocks count data ++ rest) =
        some (data.take (count * fullBlockSize))
  | 0, _, _ => rfl
  | count + 1, data, h => by
    have h8 := fullBlockSize_eq
    have hblock : (encodeBlock (data.take fullBlockSize)).length = fullEncodedBlockSize := by
      rw [length_encodeBlock, List.length_take, h8, Nat.min_eq_left (by rw [h8] at h; omega)]
      rfl
    have hdrop : count * fullBlockSize ≤ (data.drop fullBlockSize).length := by
      rw [List.length_drop]
      rw [h8] at h ⊢
      omega
    rw [encodeFullBlocks, List.append_assoc, decodeFullBlocks, List.take_left' hblock,
      List.drop_left' hblock,
      decodeBlock_encodeBlock (by rw [List.length_take, h8]; rw [h8] at h; omega)
        (by rw [List.length_take]; exact Nat.min_le_left _ _),
      Option.bind_some, decodeFullBlocks_encodeFullBlocks rest count _ hdrop, Option.map_some,
      ← List.take_add, Nat.add_mul, Nat.one_mul, Nat.add_comm]

theorem encodeFullBlocks_of_decodeFullBlocks :
    ∀ (count : ℕ) (enc : List Char) (full : List UInt8),
      count * fullEncodedBlockSize ≤ enc.length → decodeFullBlocks count enc = some full →
      full.length = count * fullBlockSize ∧
        ∀ tail, encodeFullBlocks count (full ++ tail) = enc.take (count * fullEncodedBlockSize)
  | 0, _, _, _, h => by
    cases h
    exact ⟨rfl, fun _ => rfl⟩
  | count + 1, enc, full, hlen, h => by
    obtain ⟨block, hblock, h⟩ := Option.bind_eq_some_iff.1 h
    obtain ⟨rest, hrest, rfl⟩ := Option.map_eq_some_iff.1 h
    obtain ⟨-, hsize, henc⟩ := encodeBlock_of_decodeBlock hblock
    -- a block of eleven characters holds eight bytes
    have htake : (enc.take fullEncodedBlockSize).length = fullEncodedBlockSize := by
      rw [List.length_take, Nat.min_eq_left (by rw [Nat.add_mul, Nat.one_mul] at hlen; omega)]
    have h8 : block.length = fullBlockSize := by
      rw [htake, decodedBlockSizes_full] at hsize
      exact (Option.some.inj hsize).symm
    obtain ⟨hrestlen, hrestenc⟩ := encodeFullBlocks_of_decodeFullBlocks count _ rest
      (by rw [List.length_drop, Nat.add_mul, Nat.one_mul] at *; omega) hrest
    refine ⟨by rw [List.length_append, h8, hrestlen]; ring, fun tail => ?_⟩
    rw [encodeFullBlocks, List.append_assoc, List.take_left' h8, List.drop_left' h8, henc,
      hrestenc, ← List.take_add, Nat.add_mul, Nat.one_mul, Nat.add_comm]

/-- Eleven characters for each full block, and `encoded_block_sizes[k]` for a last block of
`k` bytes. -/
theorem length_encode (data : List UInt8) :
    (encode data).length = data.length / fullBlockSize * fullEncodedBlockSize +
      encodedBlockSizes.getD (data.length % fullBlockSize) 0 := by
  by_cases hnil : data = []
  · subst hnil
    rfl
  simp only [encode, hnil, if_false, List.length_append]
  rw [length_encodeFullBlocks _ _ (Nat.div_mul_le_self _ _)]
  congr 1
  split_ifs with hr0
  · rw [length_encodeBlock, List.length_drop, Nat.mul_comm, ← Nat.mod_eq_sub_mul_div]
  · rw [Nat.eq_zero_of_not_pos hr0]
    rfl

/-- The first characters of an encoding of at least a full block are those of its first
block. -/
theorem take_encode {data : List UInt8} (hlen : fullBlockSize ≤ data.length) {n : ℕ}
    (hn : n ≤ fullEncodedBlockSize) :
    (encode data).take n = (encodeBlock (data.take fullBlockSize)).take n := by
  have hne : data ≠ [] := by
    rintro rfl
    exact absurd hlen (by rw [fullBlockSize_eq]; decide)
  have hpos : 0 < data.length / fullBlockSize :=
    Nat.div_pos hlen (by rw [fullBlockSize_eq]; decide)
  obtain ⟨count, hcount⟩ : ∃ count, data.length / fullBlockSize = count + 1 :=
    ⟨data.length / fullBlockSize - 1, by omega⟩
  have hblock : (encodeBlock (data.take fullBlockSize)).length = fullEncodedBlockSize := by
    rw [length_encodeBlock, List.length_take, Nat.min_eq_left hlen]
    rfl
  simp only [encode, hne, if_false]
  rw [hcount, encodeFullBlocks, List.append_assoc, List.take_append_of_le_length (hblock ▸ hn)]

theorem decode_encode_roundtrip (data : List UInt8) : decode (encode data) = some data := by
  by_cases hnil : data = []
  · simp [encode, decode, hnil]
  have h8 := fullBlockSize_eq
  have h11 := fullEncodedBlockSize_eq
  set n := data.length / fullBlockSize with hn
  set r := data.length % fullBlockSize with hr
  have hdata : data.length = n * fullBlockSize + r := by rw [hn, hr, Nat.div_add_mod']
  have hr8 : r < fullBlockSize := Nat.mod_lt _ (by rw [h8]; norm_num)
  obtain ⟨hsize, -, hlast, hpos⟩ := encodedBlockSizes_spec ⟨r, by omega⟩
  simp only at hsize hlast hpos
  set full := encodeFullBlocks n data with hfull
  set last := if 0 < r then encodeBlock (data.drop (n * fullBlockSize)) else [] with hlastdef
  have hfulllen : full.length = n * fullEncodedBlockSize :=
    length_encodeFullBlocks n data (by omega)
  have henc : encode data = full ++ last := by simp only [encode, hnil, if_false]; rfl
  have hlen : (full ++ last).length = n * fullEncodedBlockSize + encodedBlockSizes.getD r 0 :=
    henc ▸ length_encode data
  have hsmall := hlast.2 hr8
  have hdiv : (full ++ last).length / fullEncodedBlockSize = n := by
    rw [hlen, Nat.mul_comm, Nat.mul_add_div (by omega), Nat.div_eq_of_lt hsmall, Nat.add_zero]
  have hmod : (full ++ last).length % fullEncodedBlockSize = encodedBlockSizes.getD r 0 := by
    rw [hlen, Nat.mul_comm, Nat.mul_add_mod, Nat.mod_eq_of_lt hsmall]
  have hne : full ++ last ≠ [] := by
    rw [← List.length_pos_iff, hlen]
    rcases Nat.eq_zero_or_pos n with hn0 | hn0
    · have hr0 : 0 < r := by
        have := List.length_pos_iff.2 hnil
        rw [hdata, hn0] at this
        simpa using this
      have := hpos.2 hr0
      omega
    · have := Nat.mul_pos hn0 (show 0 < fullEncodedBlockSize by omega)
      omega
  have hdecodefull : decodeFullBlocks n (full ++ last) = some (data.take (n * fullBlockSize)) :=
    decodeFullBlocks_encodeFullBlocks last n data (by omega)
  rw [henc]
  simp only [decode, hne, if_false, hdiv, hmod, hsize, Option.bind_some, hdecodefull]
  split_ifs with hlast0
  · -- a last block of `r` bytes follows the full blocks
    have hr0 : 0 < r := hpos.1 hlast0
    rw [List.drop_left' hfulllen, hlastdef, if_pos hr0,
      decodeBlock_encodeBlock (by rw [List.length_drop]; omega)
        (by rw [List.length_drop]; omega), Option.map_some, List.take_append_drop]
  · -- only full blocks
    have hr0 : r = 0 := Nat.eq_zero_of_not_pos fun h => hlast0 (hpos.2 h)
    rw [List.take_of_length_le (by omega)]

theorem encode_of_decode {enc : List Char} {data : List UInt8} (h : decode enc = some data) :
    encode data = enc := by
  by_cases henc : enc = []
  · subst henc
    cases h
    rfl
  have h8 := fullBlockSize_eq
  have h11 := fullEncodedBlockSize_eq
  simp only [decode, henc, if_false] at h
  set n := enc.length / fullEncodedBlockSize with hn
  set m := enc.length % fullEncodedBlockSize with hm
  have henclen : enc.length = n * fullEncodedBlockSize + m := by rw [hn, hm, Nat.div_add_mod']
  have hm11 : m < fullEncodedBlockSize := Nat.mod_lt _ (by omega)
  obtain ⟨r, hr, h⟩ := Option.bind_eq_some_iff.1 h
  obtain ⟨full, hfull, h⟩ := Option.bind_eq_some_iff.1 h
  obtain ⟨hr9, hrsize⟩ := decodedBlockSizes_eq_some hr
  obtain ⟨-, -, hlast, hpos⟩ := encodedBlockSizes_spec ⟨r, hr9⟩
  simp only at hlast hpos
  have hr8 : r < fullBlockSize := hlast.1 (by omega)
  obtain ⟨hfulllen, hencfull⟩ := encodeFullBlocks_of_decodeFullBlocks n enc full (by omega) hfull
  split_ifs at h with hm0
  · -- a last block follows the full blocks
    obtain ⟨last, hlastdec, rfl⟩ := Option.map_eq_some_iff.1 h
    obtain ⟨-, hlastsize, hlastenc⟩ := encodeBlock_of_decodeBlock hlastdec
    have hdroplen : (enc.drop (n * fullEncodedBlockSize)).length = m := by
      rw [List.length_drop]
      omega
    rw [hdroplen, hr] at hlastsize
    have hlastlen : last.length = r := (Option.some.inj hlastsize).symm
    have hr0 : 0 < r := by
      rw [← hrsize] at hm0
      exact hpos.1 hm0
    have hlen : (full ++ last).length = n * fullBlockSize + r := by
      rw [List.length_append, hfulllen, hlastlen]
    have hdiv : (full ++ last).length / fullBlockSize = n := by
      rw [hlen, Nat.mul_comm, Nat.mul_add_div (by omega), Nat.div_eq_of_lt hr8, Nat.add_zero]
    have hmod : (full ++ last).length % fullBlockSize = r := by
      rw [hlen, Nat.mul_comm, Nat.mul_add_mod, Nat.mod_eq_of_lt hr8]
    have hne : full ++ last ≠ [] := by
      rw [← List.length_pos_iff, hlen]
      omega
    simp only [encode, hne, if_false, hdiv, hmod, if_pos hr0]
    rw [List.drop_left' hfulllen, hlastenc, hencfull, List.take_append_drop]
  · -- only full blocks
    cases h
    have hm00 : m = 0 := by omega
    have hn0 : 0 < n := by
      rcases Nat.eq_zero_or_pos n with hz | hz
      · exact absurd (List.eq_nil_of_length_eq_zero (by rw [henclen, hz, hm00]; simp)) henc
      · exact hz
    have hne : data ≠ [] := fun hempty => by
      have := congrArg List.length hempty
      rw [hfulllen] at this
      simp at this
      omega
    have hdiv : data.length / fullBlockSize = n := by
      rw [hfulllen, Nat.mul_div_cancel _ (by omega)]
    have hmod : data.length % fullBlockSize = 0 := by
      rw [hfulllen, Nat.mul_mod_left]
    have htail := hencfull []
    rw [List.append_nil] at htail
    simp only [encode, hne, if_false, hdiv, hmod, lt_irrefl, if_false, List.append_nil]
    rw [htail, List.take_of_length_le (by omega)]

theorem codec_roundtrip_canonical :
    (∀ data : List UInt8, decode (encode data) = some data) ∧
      (∀ (enc : List Char) (data : List UInt8), decode enc = some data → encode data = enc) ∧
      ∀ data : List UInt8, (encode data).length =
        data.length / fullBlockSize * fullEncodedBlockSize +
          encodedBlockSizes.getD (data.length % fullBlockSize) 0 :=
  ⟨decode_encode_roundtrip, fun _ _ => encode_of_decode, length_encode⟩

/-! ## Addresses -/

section Addr

variable (cnFastHash : List UInt8 → Crypto.Hash)

/-- `encode_addr`, with `cn_fast_hash` a fixed function. -/
def encodeAddr (tag : UInt64) (data : List UInt8) : List Char :=
  let buf := getVarintData tag ++ data
  let hash := cnFastHash buf
  encode (buf ++ hash.bytes.take addrChecksumSize)

/-- `decode_addr`: the tag and the data, `none` where it returns false. -/
def decodeAddr (addr : List Char) : Option (UInt64 × List UInt8) :=
  (decode addr).bind fun addrData =>
    if addrData.length ≤ addrChecksumSize then none
    else
      let checksum := addrData.drop (addrData.length - addrChecksumSize)
      let addrData := addrData.take (addrData.length - addrChecksumSize)
      let expectedChecksum := (cnFastHash addrData).bytes.take addrChecksumSize
      if expectedChecksum ≠ checksum then none
      else
        let read := (readVarint addrData).1
        let tag := (readVarint addrData).2
        if read ≤ 0 then none else some (tag, addrData.drop read.toNat)

theorem length_checksum (buf : List UInt8) :
    ((cnFastHash buf).bytes.take addrChecksumSize).length = addrChecksumSize := by
  rw [List.length_take, Crypto.Hash.length_bytes]
  rfl

/-- A payload with its checksum decodes to whatever `read_varint` makes of its front. -/
theorem decodeAddr_encode {rest : List UInt8} (hrest : rest ≠ []) :
    decodeAddr cnFastHash (encode (rest ++ (cnFastHash rest).bytes.take addrChecksumSize)) =
      if (readVarint rest).1 ≤ 0 then none
      else some ((readVarint rest).2, rest.drop (readVarint rest).1.toNat) := by
  have hchecksum := length_checksum cnFastHash rest
  have hlen : (rest ++ (cnFastHash rest).bytes.take addrChecksumSize).length - addrChecksumSize =
      rest.length := by
    rw [List.length_append, hchecksum, Nat.add_sub_cancel]
  have hlong : ¬(rest ++ (cnFastHash rest).bytes.take addrChecksumSize).length ≤
      addrChecksumSize := by
    rw [List.length_append, hchecksum]
    have := List.length_pos_iff.2 hrest
    omega
  simp only [decodeAddr, decode_encode_roundtrip, Option.bind_some, if_neg hlong, hlen,
    List.take_left' rfl, List.drop_left' rfl, ne_eq, not_true_eq_false, if_false]

theorem decodeAddr_encodeAddr (tag : UInt64) (data : List UInt8) :
    decodeAddr cnFastHash (encodeAddr cnFastHash tag data) = some (tag, data) := by
  have hvarint := readVarint_getVarintData tag data
  have hne : getVarintData tag ++ data ≠ [] := by
    rw [getVarintData_eq_encode]
    exact List.append_ne_nil_of_left_ne_nil (Leb128.encode_ne_nil _) _
  have hpos : ¬((getVarintData tag).length : ℤ) ≤ 0 := by
    rw [getVarintData_eq_encode]
    have := List.length_pos_iff.2 (Leb128.encode_ne_nil tag.toNat)
    omega
  rw [encodeAddr, decodeAddr_encode cnFastHash hne, hvarint, if_neg hpos]
  simp

/-- What `decode_addr` accepts: a payload that ends in the checksum of the rest, where the rest
is the tag's shortest varint followed by the data, or a cut-off varint, every byte with the high
bit, with empty data. -/
theorem decodeAddr_eq_some {addr : List Char} {tag : UInt64} {data : List UInt8}
    (h : decodeAddr cnFastHash addr = some (tag, data)) :
    ∃ rest, decode addr = some (rest ++ (cnFastHash rest).bytes.take addrChecksumSize) ∧
      (rest = getVarintData tag ++ data ∨
        (data = [] ∧ rest ≠ [] ∧ ∀ b ∈ rest, 0x80 ≤ b.toNat)) := by
  obtain ⟨payload, hdecode, h⟩ := Option.bind_eq_some_iff.1 h
  dsimp only at h
  split_ifs at h with hshort hchecksum hread
  set rest := payload.take (payload.length - addrChecksumSize) with hrestdef
  have hpayload : payload = rest ++ (cnFastHash rest).bytes.take addrChecksumSize := by
    rw [not_not] at hchecksum
    rw [hchecksum, List.take_append_drop]
  obtain ⟨rfl, rfl⟩ := Prod.mk.inj (Option.some.inj h)
  refine ⟨rest, hpayload ▸ hdecode, ?_⟩
  rcases readVarint_pos (not_le.1 hread) with ⟨tail, hrest, hcount⟩ | ⟨hne, hall, hcount⟩
  · -- a whole varint: the data is what follows it
    left
    have hdrop : rest.drop (readVarint rest).1.toNat = tail := by
      rw [hcount, Int.toNat_natCast]
      calc rest.drop (Leb128.encode (readVarint rest).2.toNat).length
          = (Leb128.encode (readVarint rest).2.toNat ++ tail).drop
              (Leb128.encode (readVarint rest).2.toNat).length := by rw [← hrest]
        _ = tail := List.drop_left
    rw [hdrop, getVarintData_eq_encode, ← hrest]
  · -- a cut-off varint runs to the end: nothing is left for the data
    right
    refine ⟨?_, hne, hall⟩
    rw [hcount, Int.toNat_natCast, List.drop_length]

theorem addr_roundtrip_and_acceptance :
    (∀ (tag : UInt64) (data : List UInt8),
        decodeAddr cnFastHash (encodeAddr cnFastHash tag data) = some (tag, data)) ∧
      ∀ (addr : List Char) (tag : UInt64) (data : List UInt8),
        decodeAddr cnFastHash addr = some (tag, data) →
        ∃ rest, decode addr = some (rest ++ (cnFastHash rest).bytes.take addrChecksumSize) ∧
          (rest = getVarintData tag ++ data ∨
            (data = [] ∧ rest ≠ [] ∧ ∀ b ∈ rest, 0x80 ≤ b.toNat)) :=
  ⟨decodeAddr_encodeAddr cnFastHash, fun _ _ _ => decodeAddr_eq_some cnFastHash⟩

/-- For every hash, `decode_addr` accepts the payload `0x80` with its checksum: the one byte
starts a varint that the payload cuts off, and it is read as tag `0` with empty data, though
no varint is that byte. -/
theorem decodeAddr_cut_off_varint :
    decodeAddr cnFastHash (encode ([0x80] ++ (cnFastHash [0x80]).bytes.take addrChecksumSize)) =
        some (0, []) ∧
      ∀ (tag : UInt64) (data : List UInt8), [0x80] ≠ getVarintData tag ++ data := by
  refine ⟨?_, fun tag data heq => ?_⟩
  · rw [decodeAddr_encode cnFastHash (List.cons_ne_nil _ _)]
    rfl
  · obtain ⟨init, last, hshape, -, hlast, -⟩ := Leb128.encode_shape tag.toNat
    rw [getVarintData_eq_encode, hshape] at heq
    rcases init with _ | ⟨b, init⟩
    · obtain ⟨hb, -⟩ := List.cons_eq_cons.1 heq
      rw [← hb] at hlast
      exact absurd hlast (by decide)
    · have := congrArg List.length heq
      simp at this

/-- The cut-off varint at one hash, the one that is zero on every input. -/
theorem decodeAddr_accepts_cut_off_varint :
    decodeAddr (fun _ => ⟨0⟩)
        (encode ([0x80] ++ (⟨0⟩ : Crypto.Hash).bytes.take addrChecksumSize)) = some (0, []) ∧
      ∀ (tag : UInt64) (data : List UInt8), [0x80] ≠ getVarintData tag ++ data :=
  decodeAddr_cut_off_varint fun _ => ⟨0⟩

end Addr

end Tools.Base58
