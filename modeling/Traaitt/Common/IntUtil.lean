import Mathlib.Tactic.Ring
import Traaitt.Library.Radix

/-! `int-util.h`: 128-bit arithmetic on 64-bit words. `mul128` builds a product from the four
products of the 32-bit halves and finds its two carries by comparing after unsigned wraparound.
`div128_32` divides a 128-bit number by a 32-bit divisor by long division in base `2 ^ 32`: each
`div_with_reminder` step divides the remainder of the step before, shifted into the high half,
plus the next 32-bit digit. Both are exact. -/

namespace CryptoNote

def hiDword (val : UInt64) : UInt64 :=
  val >>> 32

def loDword (val : UInt64) : UInt64 :=
  val &&& 0xFFFFFFFF

/-- `mul128`, as the low word and `*product_hi`: the product from the four products of 32-bit
halves, with the carries of the two additions that can wrap. -/
def mul128 (multiplier multiplicand : UInt64) : UInt64 × UInt64 :=
  let a := hiDword multiplier
  let b := loDword multiplier
  let c := hiDword multiplicand
  let d := loDword multiplicand
  let ac := a * c
  let ad := a * d
  let bc := b * c
  let bd := b * d
  let adbc := ad + bc
  let adbcCarry : UInt64 := if adbc < ad then 1 else 0
  let productLo := bd + (adbc <<< 32)
  let productLoCarry : UInt64 := if productLo < bd then 1 else 0
  (productLo, ac + (adbc >>> 32) + (adbcCarry <<< 32) + productLoCarry)

/-- `div_with_reminder`: the quotient, and the new `*remainder`, ORed into the high half of the
dividend of the next step. -/
def divWithReminder (dividend : UInt64) (divisor remainder : UInt32) : UInt64 × UInt32 :=
  let dividend := dividend ||| (remainder.toUInt64 <<< 32)
  (dividend / divisor.toUInt64, (dividend % divisor.toUInt64).toUInt32)

/-- `div128_32`: `*quotient_hi`, `*quotient_lo` and the remainder it returns, from the four
32-bit digits of the dividend, the highest first. -/
def div128_32 (dividendHi dividendLo : UInt64) (divisor : UInt32) : UInt64 × UInt64 × UInt32 :=
  let (quotient3, remainder) := divWithReminder (hiDword dividendHi) divisor 0
  let (quotient2, remainder) := divWithReminder (loDword dividendHi) divisor remainder
  let (quotient1, remainder) := divWithReminder (hiDword dividendLo) divisor remainder
  let (quotient0, remainder) := divWithReminder (loDword dividendLo) divisor remainder
  (quotient3 <<< 32 ||| quotient2, quotient1 <<< 32 ||| quotient0, remainder)

/-! ## Words as numbers -/

theorem toNat_hiDword (val : UInt64) : (hiDword val).toNat = val.toNat / 2 ^ 32 := by
  rw [hiDword, UInt64.toNat_shiftRight, Nat.shiftRight_eq_div_pow]
  rfl

theorem toNat_loDword (val : UInt64) : (loDword val).toNat = val.toNat % 2 ^ 32 := by
  rw [loDword, UInt64.toNat_and]
  exact Nat.and_two_pow_sub_one_eq_mod _ 32

theorem toNat_hiDword_lt (val : UInt64) : (hiDword val).toNat < 2 ^ 32 := by
  have hval := val.toNat_lt
  rw [toNat_hiDword]
  omega

theorem toNat_loDword_lt (val : UInt64) : (loDword val).toNat < 2 ^ 32 := by
  rw [toNat_loDword]
  omega

theorem toNat_mul_of_lt {x y : UInt64} (hx : x.toNat < 2 ^ 32) (hy : y.toNat < 2 ^ 32) :
    (x * y).toNat = x.toNat * y.toNat := by
  rw [UInt64.toNat_mul, Nat.mod_eq_of_lt]
  calc x.toNat * y.toNat < 2 ^ 32 * 2 ^ 32 := Nat.mul_lt_mul'' hx hy
    _ = 2 ^ 64 := by rw [← pow_add]

/-- The source's carry test after an addition, `x + y < x ? 1 : 0`. -/
theorem toNat_carry (x y : UInt64) :
    (if x + y < x then (1 : UInt64) else 0).toNat = (x.toNat + y.toNat) / 2 ^ 64 := by
  have hx := x.toNat_lt
  have hy := y.toNat_lt
  by_cases hwrap : x + y < x
  · rw [if_pos hwrap, UInt64.toNat_one]
    rw [UInt64.lt_iff_toNat_lt, UInt64.toNat_add] at hwrap
    omega
  · rw [if_neg hwrap, UInt64.toNat_zero]
    rw [UInt64.lt_iff_toNat_lt, UInt64.toNat_add] at hwrap
    omega

theorem toNat_shiftLeft_or {hi lo : UInt64} (hhi : hi.toNat < 2 ^ 32) (hlo : lo.toNat < 2 ^ 32) :
    (hi <<< 32 ||| lo).toNat = hi.toNat * 2 ^ 32 + lo.toNat := by
  have hshift : (hi <<< 32).toNat = hi.toNat * 2 ^ 32 := by
    have h32 : (32 : UInt64).toNat % 64 = 32 := rfl
    rw [UInt64.toNat_shiftLeft, h32, Nat.shiftLeft_eq]
    exact Nat.mod_eq_of_lt (by omega)
  rw [UInt64.toNat_or, hshift, Nat.mul_comm, Nat.two_pow_add_eq_or_of_lt hlo]

/-! ## `mul128` -/

/-- `mul128` is the full product: `*product_hi * 2 ^ 64 + product_lo = a * b`. -/
theorem toNat_mul128 (a b : UInt64) :
    (mul128 a b).2.toNat * 2 ^ 64 + (mul128 a b).1.toNat = a.toNat * b.toNat := by
  have ha := a.toNat_lt
  have hb := b.toNat_lt
  have hA := toNat_hiDword_lt a
  have hB := toNat_loDword_lt a
  have hC := toNat_hiDword_lt b
  have hD := toNat_loDword_lt b
  -- the schoolbook product of the halves
  have hsplit : a.toNat * b.toNat = 2 ^ 64 * ((hiDword a).toNat * (hiDword b).toNat) +
      2 ^ 32 * ((hiDword a).toNat * (loDword b).toNat + (loDword a).toNat * (hiDword b).toNat) +
      (loDword a).toNat * (loDword b).toNat := by
    have ea : a.toNat = 2 ^ 32 * (hiDword a).toNat + (loDword a).toNat := by
      rw [toNat_hiDword, toNat_loDword]; omega
    have eb : b.toNat = 2 ^ 32 * (hiDword b).toNat + (loDword b).toNat := by
      rw [toNat_hiDword, toNat_loDword]; omega
    rw [ea, eb]
    ring
  have hlt : a.toNat * b.toNat < 2 ^ 64 * 2 ^ 64 := Nat.mul_lt_mul'' ha hb
  have bAC : (hiDword a).toNat * (hiDword b).toNat < 2 ^ 64 := by
    calc _ < 2 ^ 32 * 2 ^ 32 := Nat.mul_lt_mul'' hA hC
      _ = 2 ^ 64 := by rw [← pow_add]
  simp only [mul128, toNat_carry, UInt64.toNat_add, UInt64.toNat_shiftLeft,
    UInt64.toNat_shiftRight, toNat_mul_of_lt hA hC, toNat_mul_of_lt hA hD, toNat_mul_of_lt hB hC,
    toNat_mul_of_lt hB hD, Nat.shiftLeft_eq, Nat.shiftRight_eq_div_pow, UInt64.toNat_ofNat,
    Nat.reduceMod, Nat.reducePow]
  omega

/-! ## `div128_32` -/

/-- One `div_with_reminder` step: from a remainder below the divisor and a 32-bit digit, the
quotient and remainder of `remainder * 2 ^ 32 + digit`. -/
theorem divWithReminder_spec {dividend : UInt64} {divisor remainder : UInt32}
    (hdividend : dividend.toNat < 2 ^ 32) (hremainder : remainder.toNat < divisor.toNat) :
    (divWithReminder dividend divisor remainder).1.toNat =
        (remainder.toNat * 2 ^ 32 + dividend.toNat) / divisor.toNat ∧
      (divWithReminder dividend divisor remainder).2.toNat =
        (remainder.toNat * 2 ^ 32 + dividend.toNat) % divisor.toNat := by
  have hhigh : remainder.toUInt64.toNat < 2 ^ 32 := by
    rw [UInt32.toNat_toUInt64]
    exact remainder.toNat_lt
  have hor : (dividend ||| remainder.toUInt64 <<< 32).toNat =
      remainder.toNat * 2 ^ 32 + dividend.toNat := by
    rw [UInt64.or_comm, toNat_shiftLeft_or hhigh hdividend, UInt32.toNat_toUInt64]
  have hmod : (remainder.toNat * 2 ^ 32 + dividend.toNat) % divisor.toNat < 2 ^ 32 :=
    lt_trans (Nat.mod_lt _ (by omega)) divisor.toNat_lt
  refine ⟨?_, ?_⟩
  · rw [divWithReminder, UInt64.toNat_div, hor, UInt32.toNat_toUInt64]
  · rw [divWithReminder, UInt64.toNat_toUInt32, UInt64.toNat_mod, hor, UInt32.toNat_toUInt64]
    exact Nat.mod_eq_of_lt hmod

/-- The invariant of the long division: when the remainder so far is that of the prefix `p` of
the dividend, a step leaves the remainder of the prefix one digit longer, and its quotient is the
next digit of the prefix's quotient. -/
theorem divWithReminder_prefix {dividend : UInt64} {divisor remainder : UInt32} {p : ℕ}
    (hdivisor : 0 < divisor.toNat) (hdividend : dividend.toNat < 2 ^ 32)
    (hremainder : remainder.toNat = p % divisor.toNat) :
    (divWithReminder dividend divisor remainder).2.toNat =
        (p * 2 ^ 32 + dividend.toNat) % divisor.toNat ∧
      (p * 2 ^ 32 + dividend.toNat) / divisor.toNat =
        p / divisor.toNat * 2 ^ 32 + (divWithReminder dividend divisor remainder).1.toNat ∧
      (divWithReminder dividend divisor remainder).1.toNat < 2 ^ 32 := by
  have hlt : remainder.toNat < divisor.toNat := hremainder ▸ Nat.mod_lt p hdivisor
  obtain ⟨hquotient, hrest⟩ := divWithReminder_spec hdividend hlt
  refine ⟨?_, ?_, ?_⟩
  · rw [hrest, hremainder, ← Radix.mod_step]
  · rw [hquotient, hremainder, Radix.div_step _ _ _ hdivisor]
  · rw [hquotient]
    exact Radix.div_step_lt hlt hdividend

/-- `div128_32` is long division: the quotient's words give the quotient of the 128-bit
dividend, and the returned remainder is its remainder. -/
theorem div128_32_spec (dividendHi dividendLo : UInt64) {divisor : UInt32}
    (hdivisor : 0 < divisor.toNat) :
    (div128_32 dividendHi dividendLo divisor).1.toNat * 2 ^ 64 +
        (div128_32 dividendHi dividendLo divisor).2.1.toNat =
        (dividendHi.toNat * 2 ^ 64 + dividendLo.toNat) / divisor.toNat ∧
      (div128_32 dividendHi dividendLo divisor).2.2.toNat =
        (dividendHi.toNat * 2 ^ 64 + dividendLo.toNat) % divisor.toNat := by
  -- the prefixes of the dividend, one 32-bit digit longer each time
  have hhi : (hiDword dividendHi).toNat * 2 ^ 32 + (loDword dividendHi).toNat =
      dividendHi.toNat := by
    rw [toNat_hiDword, toNat_loDword]; omega
  have hall : (dividendHi.toNat * 2 ^ 32 + (hiDword dividendLo).toNat) * 2 ^ 32 +
      (loDword dividendLo).toNat = dividendHi.toNat * 2 ^ 64 + dividendLo.toNat := by
    have hlo := Nat.div_add_mod dividendLo.toNat (2 ^ 32)
    rw [toNat_hiDword, toNat_loDword]
    calc _ = dividendHi.toNat * (2 ^ 32 * 2 ^ 32) +
          (2 ^ 32 * (dividendLo.toNat / 2 ^ 32) + dividendLo.toNat % 2 ^ 32) := by ring
      _ = dividendHi.toNat * 2 ^ 64 + dividendLo.toNat := by rw [hlo, ← pow_add]
  have hzero : (0 : UInt32).toNat = 0 % divisor.toNat := by simp
  obtain ⟨hr3, hq3, hlt3⟩ :=
    divWithReminder_prefix hdivisor (toNat_hiDword_lt dividendHi) hzero
  rw [Nat.zero_mul, Nat.zero_add] at hr3 hq3
  obtain ⟨hr2, hq2, hlt2⟩ := divWithReminder_prefix hdivisor (toNat_loDword_lt dividendHi) hr3
  rw [hhi] at hr2 hq2
  obtain ⟨hr1, hq1, hlt1⟩ := divWithReminder_prefix hdivisor (toNat_hiDword_lt dividendLo) hr2
  obtain ⟨hr0, hq0, hlt0⟩ := divWithReminder_prefix hdivisor (toNat_loDword_lt dividendLo) hr1
  rw [hall] at hr0 hq0
  simp only [div128_32]
  rw [toNat_shiftLeft_or hlt3 hlt2, toNat_shiftLeft_or hlt1 hlt0, hq0, hq1, hq2, hq3, hr0]
  constructor
  · rw [Nat.zero_div, Nat.zero_mul, Nat.zero_add]
    ring
  · rfl

/-- The 128-bit helpers are exact: `mul128` gives the whole product, and `div128_32` by a
nonzero 32-bit divisor the whole quotient and the remainder. -/
theorem mul128_div128_32_exact (a b dividendHi dividendLo : UInt64) (divisor : UInt32)
    (hdivisor : 0 < divisor.toNat) :
    (mul128 a b).2.toNat * 2 ^ 64 + (mul128 a b).1.toNat = a.toNat * b.toNat ∧
      (div128_32 dividendHi dividendLo divisor).1.toNat * 2 ^ 64 +
          (div128_32 dividendHi dividendLo divisor).2.1.toNat =
          (dividendHi.toNat * 2 ^ 64 + dividendLo.toNat) / divisor.toNat ∧
        (div128_32 dividendHi dividendLo divisor).2.2.toNat =
          (dividendHi.toNat * 2 ^ 64 + dividendLo.toNat) % divisor.toNat :=
  ⟨toNat_mul128 a b, div128_32_spec dividendHi dividendLo hdivisor⟩

theorem mul128_div128_32_exact_max :
    0 < (4294967295 : UInt32).toNat ∧
      ((mul128 18446744073709551615 18446744073709551615).2.toNat * 2 ^ 64 +
          (mul128 18446744073709551615 18446744073709551615).1.toNat =
          (18446744073709551615 : UInt64).toNat * (18446744073709551615 : UInt64).toNat ∧
        (div128_32 18446744073709551615 18446744073709551615 4294967295).1.toNat * 2 ^ 64 +
            (div128_32 18446744073709551615 18446744073709551615 4294967295).2.1.toNat =
            ((18446744073709551615 : UInt64).toNat * 2 ^ 64 +
              (18446744073709551615 : UInt64).toNat) / (4294967295 : UInt32).toNat ∧
          (div128_32 18446744073709551615 18446744073709551615 4294967295).2.2.toNat =
            ((18446744073709551615 : UInt64).toNat * 2 ^ 64 +
              (18446744073709551615 : UInt64).toNat) % (4294967295 : UInt32).toNat) :=
  ⟨by decide, mul128_div128_32_exact 18446744073709551615 18446744073709551615
    18446744073709551615 18446744073709551615 4294967295 (by decide)⟩

end CryptoNote
