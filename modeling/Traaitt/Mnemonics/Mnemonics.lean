import Mathlib.Data.List.GetD
import Traaitt.CryptoNote.Pod
import Traaitt.Errors.Errors
import Traaitt.Mnemonics.CRC32
import Traaitt.Mnemonics.WordList

/-! `Mnemonics.cpp`: a secret key as 25 words of the English list and back. Each 4-byte group of
the key is spread over three word indexes by modular differences; the 25th word is a checksum
word, picked among the other 24 by the CRC-32 of their first three letters.
`MnemonicToPrivateKey` checks a lower-cased copy of each word against the list, but reads the
indexes and the checksum off the words as given: a word with a capital letter has index
`wlLen`, which the index arithmetic reads as 0 in the second or third place of a group. -/

namespace Mnemonics

open Errors Crypto CType WordList

/-- `WordList::English.size()`. -/
def wlLen : ℕ := English.length

theorem wlLen_eq : wlLen = 1626 :=
  length_English

/-- `GetWordIndexes`: the position of each word in the list, `wlLen` for a word not in it
(`std::distance` to the end that `std::find` returns). -/
def getWordIndexes (words : List (List Char)) : List ℕ :=
  words.map fun word => English.idxOf word

/-- `GetChecksumWord`: the word at the CRC-32 of the words' first three letters, modulo their
number. -/
def getChecksumWord (words : List (List Char)) : List Char :=
  words.getD (CRC32.crc32 (words.flatMap (·.take 3)) % words.length) []

/-- `HasValidChecksum`: the last word is the checksum word of the others. -/
def hasValidChecksum (words : List (List Char)) : Bool :=
  words.getD (words.length - 1) [] == getChecksumWord words.dropLast

/-- `val` of three word indexes in `MnemonicToPrivateKey`: computed in `size_t`, where nothing
wraps, then cast to `uint32_t`. -/
def indexesToVal (w1 w2 w3 : ℕ) : ℕ :=
  (w1 + wlLen * ((wlLen - w1 + w2) % wlLen) + wlLen * wlLen * ((wlLen - w2 + w3) % wlLen)) %
    2 ^ 32

/-- The loop of `MnemonicToPrivateKey` over the indexes of all words but the last, three at a
time: the little-endian bytes of each `val`, or `none` when a group fails
`val % wlLen == w1`. -/
def indexesToBytes : List ℕ → Option (List UInt8)
  | w1 :: w2 :: w3 :: wordIndexes =>
    let val := indexesToVal w1 w2 w3
    if val % wlLen = w1 then (Radix.leBytes 4 val ++ ·) <$> indexesToBytes wordIndexes else none
  | _ => some []

/-- `MnemonicToPrivateKey(std::vector<std::string>)`. With an error the source returns an
uninitialised `Crypto::SecretKey()`, here `none`. -/
def mnemonicToPrivateKey (words : List (List Char)) : Error × Option SecretKey :=
  let len := words.length
  if len ≠ 25 then
    let wordPlural := if len = 1 then "word" else "words"
    (⟨.MNEMONIC_WRONG_LENGTH, "The mnemonic seed given is the wrong length. It should be " ++
      "25 words long, but it is " ++ toString len ++ " " ++ wordPlural ++ " long."⟩, none)
  else
    match words.find? fun word => !English.contains (word.map Char.toLower) with
    | some word =>
      (⟨.MNEMONIC_INVALID_WORD, "The mnemonic seed given has a word that is not present " ++
        "in the english word list (" ++ String.ofList (word.map Char.toLower) ++ ")."⟩, none)
    | none =>
      if !hasValidChecksum words then ((ErrorCode.MNEMONIC_INVALID_CHECKSUM : Error), none)
      else
        match indexesToBytes (getWordIndexes words).dropLast with
        | none => ((ErrorCode.INVALID_MNEMONIC : Error), none)
        | some data => ((ErrorCode.SUCCESS : Error), some ⟨podOfBytes 256 data⟩)

/-- The words of a text as `stream >> word` extracts them: the maximal runs of characters that
are not white space. -/
def splitWords (words : List Char) : List (List Char) :=
  (words.splitOnP isSpace).filter fun word => !word.isEmpty

/-- `MnemonicToPrivateKey(std::string)`. -/
def mnemonicStringToPrivateKey (words : List Char) : Error × Option SecretKey :=
  mnemonicToPrivateKey (splitWords words)

/-- The three word indexes of a `uint32_t` in `PrivateKeyToMnemonic`. -/
def valToIndexes (val : ℕ) : List ℕ :=
  let w1 := val % wlLen
  let w2 := (val / wlLen + w1) % wlLen
  let w3 := (val / wlLen / wlLen + w2) % wlLen
  [w1, w2, w3]

/-- The loop of `PrivateKeyToMnemonic` over the key's bytes, four at a time, each group read as a
little-endian `uint32_t`. -/
def bytesToWords : List UInt8 → List (List Char)
  | b0 :: b1 :: b2 :: b3 :: bytes =>
    (valToIndexes (Radix.ofLeBytes [b0, b1, b2, b3])).map (fun w => English.getD w []) ++
      bytesToWords bytes
  | _ => []

/-- The 25 words of `PrivateKeyToMnemonic`: the 24 of the key and their checksum word. -/
def mnemonicWords (privateKey : SecretKey) : List (List Char) :=
  let words := bytesToWords (podBytes 32 privateKey.data)
  words ++ [getChecksumWord words]

/-- `PrivateKeyToMnemonic`: the words joined by single spaces. -/
def privateKeyToMnemonic (privateKey : SecretKey) : List Char :=
  [' '].intercalate (mnemonicWords privateKey)

/-! ## One group of four bytes -/

theorem wlLen_pos : 0 < wlLen := by
  rw [wlLen_eq]
  decide

theorem lt_wlLen_of_mem_valToIndexes {val w : ℕ} (hw : w ∈ valToIndexes val) : w < wlLen := by
  simp only [valToIndexes, List.mem_cons, List.not_mem_nil, or_false] at hw
  rcases hw with rfl | rfl | rfl <;> exact Nat.mod_lt _ wlLen_pos

/-- The difference of two indexes, as `MnemonicToPrivateKey` takes it, undoes the sum that
`PrivateKeyToMnemonic` made. -/
theorem sub_add_mod_wlLen {a b : ℕ} (ha : a < wlLen) :
    (wlLen - a + (b + a) % wlLen) % wlLen = b % wlLen := by
  rw [wlLen_eq] at ha ⊢
  omega

theorem sub_add_mod_add_mod_wlLen {a c : ℕ} (ha : a < wlLen) (hc : c < wlLen) :
    ((wlLen - a + c) % wlLen + a) % wlLen = c := by
  rw [wlLen_eq] at ha hc ⊢
  omega

theorem indexesToVal_lt (w1 w2 w3 : ℕ) : indexesToVal w1 w2 w3 < 256 ^ 4 :=
  Nat.mod_lt _ (by decide)

/-- The indexes `PrivateKeyToMnemonic` writes for a `uint32_t` give it back, as
`wlLen ^ 3 > 2 ^ 32`. -/
theorem indexesToVal_of_valToIndexes {val w1 w2 w3 : ℕ} (hval : val < 2 ^ 32)
    (h : valToIndexes val = [w1, w2, w3]) : indexesToVal w1 w2 w3 = val := by
  simp only [valToIndexes, List.cons.injEq, and_true] at h
  obtain ⟨rfl, rfl, rfl⟩ := h
  have hlt : val / wlLen / wlLen < wlLen := by
    rw [wlLen_eq]
    omega
  have hsum : val % wlLen + wlLen * (val / wlLen % wlLen) + wlLen * wlLen * (val / wlLen / wlLen) =
      val := by
    calc _ = val % wlLen + wlLen * (val / wlLen % wlLen + wlLen * (val / wlLen / wlLen)) := by
          rw [Nat.mul_add, ← Nat.add_assoc, Nat.mul_assoc]
      _ = val := by rw [Nat.mod_add_div (val / wlLen), Nat.mod_add_div]
  rw [indexesToVal, sub_add_mod_wlLen (Nat.mod_lt _ wlLen_pos),
    sub_add_mod_wlLen (Nat.mod_lt _ wlLen_pos), Nat.mod_eq_of_lt hlt, hsum, Nat.mod_eq_of_lt hval]

/-- A sum of three indexes reaches `2 ^ 32` only below `2 ^ 33`, and there the cast to
`uint32_t` changes its remainder modulo `wlLen`, which does not divide `2 ^ 32`. -/
theorem lt_of_mod_mod_wlLen {w k : ℕ} (hw : w < wlLen) (hlt : w + wlLen * k < 2 ^ 33)
    (hcheck : (w + wlLen * k) % 2 ^ 32 % wlLen = w) : w + wlLen * k < 2 ^ 32 := by
  by_contra hge
  have hle : 2 ^ 32 ≤ w + wlLen * k := Nat.le_of_not_lt hge
  have hsub : (w + wlLen * k) % 2 ^ 32 = w + wlLen * k - 2 ^ 32 := by
    have htwice : w + wlLen * k < 2 ^ 32 + 2 ^ 32 := hlt.trans_eq (by decide)
    rw [Nat.mod_eq_sub_mod hle, Nat.mod_eq_of_lt (Nat.sub_lt_left_of_lt_add hle htwice)]
  have hmod : (w + wlLen * k) % wlLen = (w + wlLen * k - 2 ^ 32) % wlLen := by
    rw [Nat.add_mul_mod_self_left, Nat.mod_eq_of_lt hw, ← hsub, hcheck]
  have hdvd := Nat.sub_mod_eq_zero_of_mod_eq hmod
  rw [Nat.sub_sub_self hle, wlLen_eq] at hdvd
  exact absurd hdvd (by decide)

/-- Three indexes that pass `val % wlLen == w1` are the indexes `PrivateKeyToMnemonic` writes
for their `val`. -/
theorem valToIndexes_indexesToVal {w1 w2 w3 : ℕ} (h1 : w1 < wlLen) (h2 : w2 < wlLen)
    (h3 : w3 < wlLen) (hcheck : indexesToVal w1 w2 w3 % wlLen = w1) :
    valToIndexes (indexesToVal w1 w2 w3) = [w1, w2, w3] := by
  have ha := sub_add_mod_add_mod_wlLen h1 h2
  have hb := sub_add_mod_add_mod_wlLen h2 h3
  have ha_lt : (wlLen - w1 + w2) % wlLen < wlLen := Nat.mod_lt _ wlLen_pos
  have hb_lt : (wlLen - w2 + w3) % wlLen < wlLen := Nat.mod_lt _ wlLen_pos
  rw [indexesToVal] at hcheck ⊢
  generalize (wlLen - w1 + w2) % wlLen = a at ha ha_lt hcheck ⊢
  generalize (wlLen - w2 + w3) % wlLen = b at hb hb_lt hcheck ⊢
  have hsum : w1 + wlLen * a + wlLen * wlLen * b = w1 + wlLen * (a + wlLen * b) := by
    rw [Nat.mul_add, ← Nat.add_assoc, Nat.mul_assoc]
  have hbound : w1 + wlLen * (a + wlLen * b) < 2 ^ 33 := by
    rw [wlLen_eq] at h1 ha_lt hb_lt ⊢
    omega
  rw [hsum] at hcheck ⊢
  rw [Nat.mod_eq_of_lt (lt_of_mod_mod_wlLen h1 hbound hcheck), valToIndexes]
  have hdiv : (w1 + wlLen * (a + wlLen * b)) / wlLen = a + wlLen * b := by
    rw [Nat.add_mul_div_left _ _ wlLen_pos, Nat.div_eq_of_lt h1, Nat.zero_add]
  have hdiv2 : (a + wlLen * b) / wlLen = b := by
    rw [Nat.add_mul_div_left _ _ wlLen_pos, Nat.div_eq_of_lt ha_lt, Nat.zero_add]
  have hmod : (w1 + wlLen * (a + wlLen * b)) % wlLen = w1 := by
    rw [Nat.add_mul_mod_self_left, Nat.mod_eq_of_lt h1]
  have hw2 : (a + wlLen * b + w1) % wlLen = w2 := by
    rw [Nat.add_right_comm, Nat.add_mul_mod_self_left, ha]
  rw [hdiv, hmod, hw2, hdiv2, hb]

/-! ## Words and their indexes -/

theorem getD_mem_English {w : ℕ} (hw : w < wlLen) : English.getD w [] ∈ English := by
  have hw' : w < English.length := hw
  rw [List.getD_eq_getElem _ _ hw']
  exact List.getElem_mem hw'

theorem idxOf_lt_wlLen {word : List Char} (hword : word ∈ English) : English.idxOf word < wlLen :=
  List.idxOf_lt_length_of_mem hword

theorem idxOf_getD {w : ℕ} (hw : w < wlLen) : English.idxOf (English.getD w []) = w := by
  have hw' : w < English.length := hw
  rw [List.getD_eq_getElem _ _ hw']
  exact nodup_English.idxOf_getElem w hw

theorem getD_idxOf {word : List Char} (hword : word ∈ English) :
    English.getD (English.idxOf word) [] = word := by
  have hlt : English.idxOf word < English.length := idxOf_lt_wlLen hword
  rw [List.getD_eq_getElem _ _ hlt]
  exact List.getElem_idxOf _

theorem getWordIndexes_append (words₁ words₂ : List (List Char)) :
    getWordIndexes (words₁ ++ words₂) = getWordIndexes words₁ ++ getWordIndexes words₂ :=
  List.map_append

theorem getWordIndexes_map_getD {wordIndexes : List ℕ} (h : ∀ w ∈ wordIndexes, w < wlLen) :
    getWordIndexes (wordIndexes.map fun w => English.getD w []) = wordIndexes := by
  rw [getWordIndexes, List.map_map]
  conv_rhs => rw [← List.map_id wordIndexes]
  exact List.map_congr_left fun w hw => idxOf_getD (h w hw)

/-! ## PrivateKeyToMnemonic -/

theorem ofLeBytes_lt_of_length {group : List UInt8} (h : group.length = 4) :
    Radix.ofLeBytes group < 2 ^ 32 := by
  have hlt := Radix.ofLeBytes_lt group
  rw [h] at hlt
  exact hlt

/- The equations of the two loops, stated once here: each holds by unfolding, and the proofs
below rewrite with them. -/

theorem bytesToWords_cons (b0 b1 b2 b3 : UInt8) (bytes : List UInt8) :
    bytesToWords (b0 :: b1 :: b2 :: b3 :: bytes) =
      (valToIndexes (Radix.ofLeBytes [b0, b1, b2, b3])).map (fun w => English.getD w []) ++
        bytesToWords bytes :=
  rfl

theorem indexesToBytes_cons (w1 w2 w3 : ℕ) (wordIndexes : List ℕ) :
    indexesToBytes (w1 :: w2 :: w3 :: wordIndexes) =
      if indexesToVal w1 w2 w3 % wlLen = w1 then
        (Radix.leBytes 4 (indexesToVal w1 w2 w3) ++ ·) <$> indexesToBytes wordIndexes
      else none :=
  rfl

theorem bytesToWords_append {group : List UInt8} (h : group.length = 4) (bytes : List UInt8) :
    bytesToWords (group ++ bytes) =
      (valToIndexes (Radix.ofLeBytes group)).map (fun w => English.getD w []) ++
        bytesToWords bytes := by
  match group, h with
  | [_, _, _, _], _ => rfl

theorem length_bytesToWords :
    ∀ bytes : List UInt8, (bytesToWords bytes).length = 3 * (bytes.length / 4)
  | _ :: _ :: _ :: _ :: bytes => by
    rw [bytesToWords_cons, List.length_append, List.length_map, length_bytesToWords bytes]
    simp only [valToIndexes, List.length_cons, List.length_nil]
    omega
  | [] | [_] | [_, _] | [_, _, _] => by
    simp only [List.length_cons, List.length_nil]
    rfl

theorem mem_English_of_mem_bytesToWords :
    ∀ {bytes : List UInt8} {word : List Char}, word ∈ bytesToWords bytes → word ∈ English
  | _ :: _ :: _ :: _ :: _, _, h => by
    rw [bytesToWords_cons, List.mem_append, List.mem_map] at h
    rcases h with ⟨w, hw, rfl⟩ | h
    · exact getD_mem_English (lt_wlLen_of_mem_valToIndexes hw)
    · exact mem_English_of_mem_bytesToWords h
  | [], _, h | [_], _, h | [_, _], _, h | [_, _, _], _, h => absurd h List.not_mem_nil

theorem indexesToBytes_getWordIndexes_bytesToWords :
    ∀ {bytes : List UInt8}, bytes.length % 4 = 0 →
      indexesToBytes (getWordIndexes (bytesToWords bytes)) = some bytes
  | b0 :: b1 :: b2 :: b3 :: bytes, hlen => by
    have hval : Radix.ofLeBytes [b0, b1, b2, b3] < 2 ^ 32 := ofLeBytes_lt_of_length rfl
    obtain ⟨w1, w2, w3, hw⟩ : ∃ w1 w2 w3,
        valToIndexes (Radix.ofLeBytes [b0, b1, b2, b3]) = [w1, w2, w3] := ⟨_, _, _, rfl⟩
    have hlt : ∀ w ∈ [w1, w2, w3], w < wlLen := fun w h => lt_wlLen_of_mem_valToIndexes (hw ▸ h)
    have hcheck : indexesToVal w1 w2 w3 % wlLen = w1 := by
      rw [indexesToVal_of_valToIndexes hval hw]
      simp only [valToIndexes, List.cons.injEq] at hw
      exact hw.1
    have hbytes : Radix.leBytes 4 (Radix.ofLeBytes [b0, b1, b2, b3]) = [b0, b1, b2, b3] :=
      Radix.leBytes_ofLeBytes [b0, b1, b2, b3]
    rw [bytesToWords_cons, hw, getWordIndexes_append, getWordIndexes_map_getD hlt,
      List.cons_append, List.cons_append, List.cons_append, List.nil_append, indexesToBytes_cons,
      if_pos hcheck,
      indexesToBytes_getWordIndexes_bytesToWords (by simp only [List.length_cons] at hlen; omega),
      indexesToVal_of_valToIndexes hval hw, hbytes]
    rfl
  | [], _ => rfl
  | [_], h | [_, _], h | [_, _, _], h => by simp at h

theorem indexesToBytes_of_length_lt :
    ∀ wordIndexes : List ℕ, wordIndexes.length < 3 → indexesToBytes wordIndexes = some []
  | [], _ | [_], _ | [_, _], _ => rfl

theorem length_of_indexesToBytes :
    ∀ (wordIndexes : List ℕ) {data : List UInt8}, indexesToBytes wordIndexes = some data →
      data.length = 4 * (wordIndexes.length / 3)
  | w1 :: w2 :: w3 :: wordIndexes => fun h => by
    rw [indexesToBytes_cons] at h
    split_ifs at h
    obtain ⟨rest, hrest, rfl⟩ := Option.map_eq_some_iff.1 h
    rw [List.length_append, Radix.length_leBytes, length_of_indexesToBytes wordIndexes hrest]
    simp only [List.length_cons]
    omega
  | [] | [_] | [_, _] => fun h => by
    rw [indexesToBytes_of_length_lt _ (by simp), Option.some.injEq] at h
    simp [← h]

/-- Words of the list whose indexes passed the check are the words written for the bytes they
gave. -/
theorem bytesToWords_of_indexesToBytes :
    ∀ (words : List (List Char)) {data : List UInt8}, words.length % 3 = 0 →
      (∀ word ∈ words, word ∈ English) → indexesToBytes (getWordIndexes words) = some data →
        bytesToWords data = words
  | word1 :: word2 :: word3 :: words => fun hlen hmem h => by
    have h1 := idxOf_lt_wlLen (hmem word1 (by simp))
    have h2 := idxOf_lt_wlLen (hmem word2 (by simp))
    have h3 := idxOf_lt_wlLen (hmem word3 (by simp))
    rw [getWordIndexes, List.map_cons, List.map_cons, List.map_cons, indexesToBytes_cons] at h
    split_ifs at h with hcheck
    obtain ⟨rest, hrest, rfl⟩ := Option.map_eq_some_iff.1 h
    rw [bytesToWords_append (Radix.length_leBytes 4 _), Radix.ofLeBytes_leBytes,
      Nat.mod_eq_of_lt (indexesToVal_lt _ _ _), valToIndexes_indexesToVal h1 h2 h3 hcheck,
      bytesToWords_of_indexesToBytes words (by simp only [List.length_cons] at hlen; omega)
        (fun word hword => hmem word (by simp [hword])) hrest]
    simp only [List.map_cons, List.map_nil, List.cons_append, List.nil_append,
      getD_idxOf (hmem word1 (by simp)), getD_idxOf (hmem word2 (by simp)),
      getD_idxOf (hmem word3 (by simp))]
  | [] => fun _ _ h => by
    rw [getWordIndexes, List.map_nil, indexesToBytes_of_length_lt _ (by simp),
      Option.some.injEq] at h
    rw [← h]
    rfl
  | [_] | [_, _] => fun hlen _ _ => by simp at hlen

theorem length_mnemonicWords (privateKey : SecretKey) : (mnemonicWords privateKey).length = 25 := by
  rw [mnemonicWords, List.length_append, length_bytesToWords, length_podBytes]
  rfl

theorem mem_English_of_mem_mnemonicWords (privateKey : SecretKey) :
    ∀ word ∈ mnemonicWords privateKey, word ∈ English := by
  intro word hword
  rw [mnemonicWords, List.mem_append, List.mem_singleton] at hword
  rcases hword with hword | rfl
  · exact mem_English_of_mem_bytesToWords hword
  · have hlen := length_bytesToWords (podBytes 32 privateKey.data)
    rw [length_podBytes] at hlen
    rw [getChecksumWord, List.getD_eq_getElem _ _ (Nat.mod_lt _ (by omega))]
    exact mem_English_of_mem_bytesToWords (List.getElem_mem _)

/-! ## The checksum word -/

theorem hasValidChecksum_append_getChecksumWord (words : List (List Char)) :
    hasValidChecksum (words ++ [getChecksumWord words]) = true := by
  rw [hasValidChecksum, List.dropLast_concat, List.length_append, List.length_singleton,
    Nat.add_sub_cancel, List.getD_append_right _ _ _ _ (Nat.le_refl _), Nat.sub_self]
  exact beq_self_eq_true _

theorem dropLast_append_getChecksumWord {words : List (List Char)} (hne : words ≠ [])
    (h : hasValidChecksum words = true) :
    words.dropLast ++ [getChecksumWord words.dropLast] = words := by
  rw [hasValidChecksum, beq_iff_eq] at h
  have hlen : words.length - 1 < words.length :=
    Nat.sub_lt (List.length_pos_of_ne_nil hne) Nat.one_pos
  rw [← h, List.getD_eq_getElem _ _ hlen, ← List.getLast_eq_getElem hne]
  exact List.dropLast_concat_getLast hne

/-! ## MnemonicToPrivateKey -/

theorem mnemonicToPrivateKey_eq_success_iff {words : List (List Char)} {privateKey : SecretKey} :
    mnemonicToPrivateKey words = ((ErrorCode.SUCCESS : Error), some privateKey) ↔
      words.length = 25 ∧ (∀ word ∈ words, word.map Char.toLower ∈ English) ∧
        hasValidChecksum words = true ∧
        ∃ data, indexesToBytes (getWordIndexes words).dropLast = some data ∧
          privateKey = ⟨podOfBytes 256 data⟩ := by
  unfold mnemonicToPrivateKey
  by_cases hlen : words.length = 25
  · simp only [hlen, ne_eq, not_true_eq_false, if_false, true_and]
    cases hfind : words.find? fun word => !English.contains (word.map Char.toLower) with
    | some word =>
      -- the word `std::find` misses: an error, and a word outside the list
      have hword : word.map Char.toLower ∉ English := by simpa using List.find?_some hfind
      have hmem := List.mem_of_find?_eq_some hfind
      simp only [Prod.mk.injEq, Error.mk.injEq, reduceCtorEq, false_and, false_iff, not_and,
        not_exists]
      exact fun hall => absurd (hall word hmem) hword
    | none =>
      have hall : ∀ word ∈ words, word.map Char.toLower ∈ English := by
        intro word hword
        simpa using List.find?_eq_none.1 hfind word hword
      cases hcheck : hasValidChecksum words with
      | false => simp
      | true =>
        cases hdata : indexesToBytes (getWordIndexes words).dropLast with
        | none => simp
        | some data =>
          simp only [Bool.not_true, Bool.false_eq_true, if_false, Prod.mk.injEq, Option.some.injEq,
            true_and, exists_eq_left', eq_comm]
          exact ⟨fun h => ⟨hall, h⟩, fun h => h.2⟩
  · simp [hlen]

theorem splitWords_intercalate :
    ∀ {words : List (List Char)}, (∀ word ∈ words, word ≠ [] ∧ ∀ c ∈ word, isSpace c = false) →
      splitWords ([' '].intercalate words) = words
  | [], _ => rfl
  | [word], h => by
    obtain ⟨hne, hspace⟩ := h word List.mem_cons_self
    rw [List.intercalate_singleton, splitWords, List.splitOnP_eq_singleton hspace]
    simp [hne]
  | word :: word' :: words, h => by
    obtain ⟨hne, hspace⟩ := h word List.mem_cons_self
    have ih : splitWords ([' '].intercalate (word' :: words)) = word' :: words :=
      splitWords_intercalate fun word hword => h word (List.mem_cons_of_mem _ hword)
    rw [splitWords] at ih
    rw [List.intercalate_cons_cons, List.append_assoc, List.singleton_append, splitWords,
      List.splitOnP_append_cons_of_forall_mem hspace ' ' (by decide), List.filter_cons_of_pos
        (by simpa using hne), ih]

theorem mnemonicStringToPrivateKey_privateKeyToMnemonic (privateKey : SecretKey) :
    mnemonicStringToPrivateKey (privateKeyToMnemonic privateKey) =
      ((ErrorCode.SUCCESS : Error), some privateKey) := by
  have hmem := mem_English_of_mem_mnemonicWords privateKey
  rw [mnemonicStringToPrivateKey, privateKeyToMnemonic, splitWords_intercalate fun word hword =>
      ⟨ne_nil_of_mem_English word (hmem word hword),
        isSpace_of_mem_English word (hmem word hword)⟩,
    mnemonicToPrivateKey_eq_success_iff]
  refine ⟨length_mnemonicWords privateKey, fun word hword => ?_,
    hasValidChecksum_append_getChecksumWord _, podBytes 32 privateKey.data, ?_, ?_⟩
  · rw [map_toLower_of_mem_English word (hmem word hword)]
    exact hmem word hword
  · rw [mnemonicWords, getWordIndexes, List.map_append, List.map_singleton, List.dropLast_concat]
    exact indexesToBytes_getWordIndexes_bytesToWords (by rw [length_podBytes])
  · exact (congrArg SecretKey.mk (podOfBytes_podBytes 32 privateKey.data)).symm

theorem privateKeyToMnemonic_of_mnemonicToPrivateKey {words : List (List Char)}
    {privateKey : SecretKey} (hlower : ∀ word ∈ words, word.map Char.toLower = word)
    (h : mnemonicToPrivateKey words = ((ErrorCode.SUCCESS : Error), some privateKey)) :
    privateKeyToMnemonic privateKey =
      [' '].intercalate (words.map fun word => word.map Char.toLower) := by
  obtain ⟨hlen, hmem, hcheck, data, hdata, rfl⟩ := mnemonicToPrivateKey_eq_success_iff.1 h
  have hmem' : ∀ word ∈ words, word ∈ English := fun word hword =>
    hlower word hword ▸ hmem word hword
  have hne : words ≠ [] := List.ne_nil_of_length_pos (by omega)
  have hdata' : indexesToBytes (getWordIndexes words.dropLast) = some data := by
    rw [getWordIndexes, List.map_dropLast]
    exact hdata
  have hlen_data : data.length = 32 := by
    rw [length_of_indexesToBytes _ hdata', getWordIndexes, List.length_map, List.length_dropLast,
      hlen]
  have hwords : bytesToWords data = words.dropLast :=
    bytesToWords_of_indexesToBytes _ (by rw [List.length_dropLast, hlen])
      (fun word hword => hmem' word (List.dropLast_subset _ hword)) hdata'
  have hpod : podBytes 32 (podOfBytes 256 data) = data := podBytes_podOfBytes hlen_data
  rw [privateKeyToMnemonic, mnemonicWords, hpod, hwords, dropLast_append_getChecksumWord hne hcheck,
    List.map_congr_left hlower, List.map_id']

/-- The canonical seed of the key with bytes `0, 1, …, 31`, with its second word capitalised and
the checksum word recomputed from the words as given: `MnemonicToPrivateKey` accepts it, reading
`Buffet` as index 0, and returns a key whose seed is not the lower-cased words. -/
theorem mnemonicToPrivateKey_capitalised_seed :
    (let seed : List (List Char) :=
    [['a', 'm', 'a', 'z', 'e'], ['B', 'u', 'f', 'f', 'e', 't'], ['c', 'a', 'k', 'e'],
      ['e', 'n', 't', 'r', 'a', 'n', 'c', 'e'], ['s', 'y', 'm', 'p', 't', 'o', 'm', 's'],
      ['t', 'i', 'g', 'e', 'r'], ['l', 'a', 'm', 'b'], ['m', 'a', 'z', 'e'],
      ['n', 'e', 's', 't', 'l', 'e'], ['p', 'y', 't', 'h', 'o', 'n'],
      ['d', 'u', 's', 't', 'e', 'd'], ['f', 'a', 'x', 'e', 'd'], ['u', 'p', 'd', 'a', 't', 'e'],
      ['v', 'a', 'g', 'u', 'e'], ['z', 'i', 'n', 'g', 'e', 'r'], ['b', 'o', 'x', 'e', 's'],
      ['o', 'r', 'n', 'a', 'm', 'e', 'n', 't'], ['r', 'e', 'n', 't', 'i', 'n', 'g'],
      ['g', 'l', 'a', 's', 's'], ['g', 'a', 'i', 'n', 'e', 'd'], ['i', 's', 'l', 'a', 'n', 'd'],
      ['n', 'a', 'b', 'b', 'i', 'n', 'g'], ['a', 'f', 'i', 'e', 'l', 'd'],
      ['c', 'a', 'l', 'a', 'm', 'i', 't', 'y'], ['f', 'a', 'x', 'e', 'd']]
    let privateKey : SecretKey :=
      ⟨0x1f1e1d1c1b1a191817161514131211100f0e0d0c0b0a09080706050423c4137a#256⟩
    mnemonicToPrivateKey seed = ((ErrorCode.SUCCESS : Error), some privateKey) ∧
      privateKeyToMnemonic privateKey ≠
        [' '].intercalate (seed.map fun word => word.map Char.toLower)) := by
  decide +kernel

/-- The seed of the zero key with its first word capitalised: the membership test lower-cases the
word, the word list lookup does not, and its index `wlLen` fails `val % wlLen == w1`, so the seed
is refused although its lower-cased words give the zero key. -/
theorem mnemonicToPrivateKey_lowerCase_differs :
    (let seed : List (List Char) :=
      ['A', 'b', 'b', 'e', 'y'] :: List.replicate 24 ['a', 'b', 'b', 'e', 'y']
    mnemonicToPrivateKey (seed.map fun word => word.map Char.toLower) =
        ((ErrorCode.SUCCESS : Error), some ⟨0⟩) ∧
      mnemonicToPrivateKey seed = ((ErrorCode.INVALID_MNEMONIC : Error), none)) := by
  decide +kernel

end Mnemonics
