import Mathlib.Tactic.Ring
import Traaitt.CryptoNote.Types
import Traaitt.Common.IntUtil

/-! `CheckDifficulty.cpp`: a hash meets a difficulty when the hash, read as a little-endian
256-bit number, times the difficulty stays below `2 ^ 256`. `check_hash` multiplies each 64-bit
word of the hash by the difficulty and adds the partial products with their carries; the carry
out of the top word is the overflow. `mul` takes the 128-bit product from `unsigned __int128`,
or from `mul128` on compilers without it, and the two agree. -/

namespace CryptoNote

open Crypto

/-- `swap64le(((const uint64_t *)&hash)[i])`: the `i`-th little-endian 64-bit word of a hash,
whose byte `j` is bits `8 j` to `8 j + 7` of its data. -/
def hashWord (hash : Hash) (i : ℕ) : UInt64 :=
  UInt64.ofNat (hash.data.toNat >>> (64 * i))

/-- `mul` with `unsigned __int128`: the low and the high word of the product, which the 128-bit
type holds without wrapping. -/
def mul (a b : UInt64) : UInt64 × UInt64 :=
  let res := a.toNat * b.toNat
  (UInt64.ofNat res, UInt64.ofNat (res >>> 64))

/-- `cadd`: the carry out of `a + b`. -/
def cadd (a b : UInt64) : Bool :=
  a + b < a

/-- `cadc`: the carry out of `a + b + c`. -/
def cadc (a b : UInt64) (c : Bool) : Bool :=
  a + b < a || (c && a + b == -1)

def checkHash (hash : Hash) (difficulty : UInt64) : Bool :=
  -- the highest word first: it fails for most hashes
  let (top, high) := mul (hashWord hash 3) difficulty
  if high ≠ 0 then false
  else
    let (_, cur) := mul (hashWord hash 0) difficulty
    let (low, high) := mul (hashWord hash 1) difficulty
    let carry := cadd cur low
    let cur := high
    let (low, high) := mul (hashWord hash 2) difficulty
    let carry := cadc cur low carry
    let carry := cadc high top carry
    !carry

/-! ## Words, products and carries as numbers -/

theorem toNat_hashWord (hash : Hash) (i : ℕ) :
    (hashWord hash i).toNat = hash.data.toNat / 2 ^ (64 * i) % 2 ^ 64 := by
  rw [hashWord, UInt64.toNat_ofNat', Nat.shiftRight_eq_div_pow]

theorem toNat_eq_hashWords (hash : Hash) :
    hash.data.toNat = (hashWord hash 0).toNat + 2 ^ 64 * (hashWord hash 1).toNat +
      2 ^ 128 * (hashWord hash 2).toNat + 2 ^ 192 * (hashWord hash 3).toNat := by
  have hlt := hash.data.isLt
  simp only [toNat_hashWord]
  omega

theorem toNat_mul (a b : UInt64) :
    (mul a b).1.toNat + 2 ^ 64 * (mul a b).2.toNat = a.toNat * b.toNat := by
  have ha := a.toNat_lt
  have hb := b.toNat_lt
  have hlt : a.toNat * b.toNat < 2 ^ 64 * 2 ^ 64 := Nat.mul_lt_mul'' ha hb
  simp only [mul, UInt64.toNat_ofNat', Nat.shiftRight_eq_div_pow]
  omega

theorem cadd_eq_true_iff (a b : UInt64) : cadd a b = true ↔ 2 ^ 64 ≤ a.toNat + b.toNat := by
  have hb := b.toNat_lt
  simp only [cadd, decide_eq_true_eq, UInt64.lt_iff_toNat_lt, UInt64.toNat_add]
  omega

theorem cadc_eq_true_iff (a b : UInt64) (c : Bool) :
    cadc a b c = true ↔ 2 ^ 64 ≤ a.toNat + b.toNat + c.toNat := by
  have ha := a.toNat_lt
  have hb := b.toNat_lt
  have hmax : (-1 : UInt64).toNat = 2 ^ 64 - 1 := rfl
  simp only [cadc, Bool.or_eq_true, Bool.and_eq_true, beq_iff_eq, decide_eq_true_eq,
    UInt64.lt_iff_toNat_lt, ← UInt64.toNat_inj, UInt64.toNat_add, hmax]
  cases c <;> simp <;> omega

theorem toNat_of_eq_true_iff {carry : Bool} {sum : ℕ} (hsum : sum < 2 * 2 ^ 64)
    (h : carry = true ↔ 2 ^ 64 ≤ sum) : carry.toNat = sum / 2 ^ 64 := by
  cases carry
  · have : ¬2 ^ 64 ≤ sum := by simpa using h
    rw [Bool.toNat_false]
    omega
  · have : 2 ^ 64 ≤ sum := h.1 rfl
    rw [Bool.toNat_true]
    omega

theorem toNat_cadd (a b : UInt64) : (cadd a b).toNat = (a.toNat + b.toNat) / 2 ^ 64 := by
  have ha := a.toNat_lt
  have hb := b.toNat_lt
  exact toNat_of_eq_true_iff (by omega) (cadd_eq_true_iff a b)

theorem toNat_cadc (a b : UInt64) (c : Bool) :
    (cadc a b c).toNat = (a.toNat + b.toNat + c.toNat) / 2 ^ 64 := by
  have ha := a.toNat_lt
  have hb := b.toNat_lt
  have hc := c.toNat_le
  exact toNat_of_eq_true_iff (by omega) (cadc_eq_true_iff a b c)

/-! ## `check_hash` -/

/-- `check_hash` with its words named: no high word of the top product, and no carry out of
the sum of the shifted partial products. -/
theorem checkHash_eq (hash : Hash) (difficulty : UInt64) :
    checkHash hash difficulty = (decide ((mul (hashWord hash 3) difficulty).2 = 0) &&
      !cadc (mul (hashWord hash 2) difficulty).2 (mul (hashWord hash 3) difficulty).1
        (cadc (mul (hashWord hash 1) difficulty).2 (mul (hashWord hash 2) difficulty).1
          (cadd (mul (hashWord hash 0) difficulty).2 (mul (hashWord hash 1) difficulty).1))) := by
  unfold checkHash
  generalize mul (hashWord hash 0) difficulty = p0
  generalize mul (hashWord hash 1) difficulty = p1
  generalize mul (hashWord hash 2) difficulty = p2
  generalize mul (hashWord hash 3) difficulty = p3
  obtain ⟨top, high⟩ := p3
  by_cases hhigh : high = 0 <;> simp [hhigh]

theorem checkHash_eq_true_iff (hash : Hash) (difficulty : UInt64) :
    checkHash hash difficulty = true ↔ hash.data.toNat * difficulty.toNat < 2 ^ 256 := by
  have e0 := toNat_mul (hashWord hash 0) difficulty
  have e1 := toNat_mul (hashWord hash 1) difficulty
  have e2 := toNat_mul (hashWord hash 2) difficulty
  have e3 := toNat_mul (hashWord hash 3) difficulty
  have l0 := (mul (hashWord hash 0) difficulty).1.toNat_lt
  have l1 := (mul (hashWord hash 1) difficulty).1.toNat_lt
  have l2 := (mul (hashWord hash 2) difficulty).1.toNat_lt
  have l3 := (mul (hashWord hash 3) difficulty).1.toNat_lt
  have h0 := (mul (hashWord hash 0) difficulty).2.toNat_lt
  have h1 := (mul (hashWord hash 1) difficulty).2.toNat_lt
  have h2 := (mul (hashWord hash 2) difficulty).2.toNat_lt
  -- the product is the sum of the partial products, each at its word's place
  have hprod : hash.data.toNat * difficulty.toNat =
      (hashWord hash 0).toNat * difficulty.toNat +
        2 ^ 64 * ((hashWord hash 1).toNat * difficulty.toNat) +
        2 ^ 128 * ((hashWord hash 2).toNat * difficulty.toNat) +
        2 ^ 192 * ((hashWord hash 3).toNat * difficulty.toNat) := by
    rw [toNat_eq_hashWords]
    ring
  rw [checkHash_eq, Bool.and_eq_true, decide_eq_true_eq, Bool.not_eq_true', ← Bool.toNat_eq_zero,
    toNat_cadc, toNat_cadc, toNat_cadd, ← UInt64.toNat_inj, UInt64.toNat_zero]
  omega

end CryptoNote
