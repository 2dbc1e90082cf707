import Mathlib.Data.Nat.Digits.Defs

/-! Fixed-width radix expansions. `Radix.digits base width n` are the `width` lowest digits of
`n`, least significant first, written by structural recursion so that they evaluate; with
`Nat.ofDigits` they form a bijection between numbers below `base ^ width` and digit lists of
length `width`. Codecs that write numbers into fixed-size blocks (bytes of a word, characters
of an encoded block) are instances. -/

namespace Radix

/-- The `width` lowest digits of `n` in base `base`, least significant first. -/
def digits (base : ℕ) : ℕ → ℕ → List ℕ
  | 0, _ => []
  | width + 1, n => n % base :: digits base width (n / base)

variable {base width n : ℕ}

@[simp] theorem digits_zero (base n : ℕ) : digits base 0 n = [] := rfl

theorem digits_succ (base width n : ℕ) :
    digits base (width + 1) n = n % base :: digits base width (n / base) := rfl

@[simp] theorem length_digits (base width n : ℕ) : (digits base width n).length = width := by
  induction width generalizing n with
  | zero => rfl
  | succ width ih => simp [digits_succ, ih]

theorem lt_of_mem_digits (hbase : 0 < base) {d : ℕ} (hd : d ∈ digits base width n) :
    d < base := by
  induction width generalizing n with
  | zero => simp at hd
  | succ width ih =>
    rw [digits_succ, List.mem_cons] at hd
    rcases hd with rfl | hd
    · exact Nat.mod_lt _ hbase
    · exact ih hd

theorem ofDigits_digits (base width n : ℕ) :
    Nat.ofDigits base (digits base width n) = n % base ^ width := by
  induction width generalizing n with
  | zero => simp [Nat.mod_one]
  | succ width ih =>
    rw [digits_succ, Nat.ofDigits_cons, ih, pow_succ', Nat.mod_mul]

theorem ofDigits_digits_of_lt (hn : n < base ^ width) :
    Nat.ofDigits base (digits base width n) = n := by
  rw [ofDigits_digits, Nat.mod_eq_of_lt hn]

theorem digits_ofDigits {ds : List ℕ} (hds : ∀ d ∈ ds, d < base) :
    digits base ds.length (Nat.ofDigits base ds) = ds := by
  induction ds with
  | nil => rfl
  | cons d ds ih =>
    have hd : d < base := hds d List.mem_cons_self
    have hpos : 0 < base := Nat.zero_lt_of_lt hd
    have hlow : (d + base * Nat.ofDigits base ds) % base = d := by
      rw [Nat.add_mul_mod_self_left, Nat.mod_eq_of_lt hd]
    have hhigh : (d + base * Nat.ofDigits base ds) / base = Nat.ofDigits base ds := by
      rw [Nat.add_mul_div_left _ _ hpos, Nat.div_eq_of_lt hd, Nat.zero_add]
    rw [List.length_cons, digits_succ, Nat.ofDigits_cons, hlow, hhigh,
      ih fun x hx => hds x (List.mem_cons_of_mem d hx)]

theorem drop_digits (base : ℕ) :
    ∀ (w k n : ℕ), (digits base (w + k) n).drop w = digits base k (n / base ^ w)
  | 0, k, n => by rw [Nat.zero_add, List.drop_zero, pow_zero, Nat.div_one]
  | w + 1, k, n => by
    rw [Nat.add_right_comm, digits_succ, List.drop_succ_cons, drop_digits base w k,
      Nat.div_div_eq_div_mul, pow_succ']

/-! ## Little-endian bytes -/

/-- The `width` low bytes of `n`, least significant first: the memory of a little-endian
integer, or of a byte array read as one number. -/
def leBytes (width n : ℕ) : List UInt8 :=
  (digits 256 width n).map UInt8.ofNat

/-- The number whose little-endian bytes are `bytes`. -/
def ofLeBytes (bytes : List UInt8) : ℕ :=
  Nat.ofDigits 256 (bytes.map UInt8.toNat)

@[simp] theorem length_leBytes (width n : ℕ) : (leBytes width n).length = width := by
  simp [leBytes]

theorem map_toNat_leBytes (width n : ℕ) :
    (leBytes width n).map UInt8.toNat = digits 256 width n := by
  rw [leBytes, List.map_map]
  conv_rhs => rw [← List.map_id (digits 256 width n)]
  refine List.map_congr_left fun d hd => ?_
  have : d < 256 := lt_of_mem_digits (by norm_num) hd
  simp [UInt8.toNat_ofNat', Nat.mod_eq_of_lt this]

theorem ofLeBytes_append (bytes₁ bytes₂ : List UInt8) :
    ofLeBytes (bytes₁ ++ bytes₂) = ofLeBytes bytes₁ + 256 ^ bytes₁.length * ofLeBytes bytes₂ := by
  rw [ofLeBytes, List.map_append, Nat.ofDigits_append, List.length_map, ofLeBytes, ofLeBytes]

@[simp] theorem ofLeBytes_singleton (b : UInt8) : ofLeBytes [b] = b.toNat := by
  simp [ofLeBytes]

theorem ofLeBytes_leBytes (width n : ℕ) : ofLeBytes (leBytes width n) = n % 256 ^ width := by
  rw [ofLeBytes, map_toNat_leBytes, ofDigits_digits]

theorem toNat_lt_of_mem_map {bytes : List UInt8} {d : ℕ} (hd : d ∈ bytes.map UInt8.toNat) :
    d < 256 := by
  obtain ⟨b, -, rfl⟩ := List.mem_map.1 hd
  exact b.toNat_lt

theorem leBytes_ofLeBytes (bytes : List UInt8) : leBytes bytes.length (ofLeBytes bytes) = bytes := by
  have hlen : (bytes.map UInt8.toNat).length = bytes.length := List.length_map _
  have hdigits : digits 256 bytes.length (ofLeBytes bytes) = bytes.map UInt8.toNat := by
    rw [ofLeBytes, ← hlen, digits_ofDigits fun d hd => toNat_lt_of_mem_map hd]
  rw [leBytes, hdigits, List.map_map]
  conv_rhs => rw [← List.map_id bytes]
  exact List.map_congr_left fun b _ => UInt8.ofNat_toNat

theorem ofLeBytes_lt (bytes : List UInt8) : ofLeBytes bytes < 256 ^ bytes.length := by
  have hlen : (bytes.map UInt8.toNat).length = bytes.length := List.length_map _
  rw [ofLeBytes, ← hlen]
  exact Nat.ofDigits_lt_base_pow_length (by norm_num) fun d hd => toNat_lt_of_mem_map hd

/-! ## Long division

Dividing a number digit by digit, most significant first: each step divides the remainder so far,
shifted one digit, plus the next digit. -/

theorem mul_add_eq_mod_add (a x base d : ℕ) :
    a * base + x = a % d * base + x + d * (a / d * base) := by
  calc a * base + x = (a % d + d * (a / d)) * base + x := by rw [Nat.mod_add_div]
    _ = a % d * base + x + d * (a / d * base) := by ring

/-- One step of long division: the quotient of `a * base + x` is the quotient of `a` shifted one
digit, plus the digit the remainder of `a` and `x` give. -/
theorem div_step (a x base : ℕ) {d : ℕ} (hd : 0 < d) :
    (a * base + x) / d = a / d * base + (a % d * base + x) / d := by
  rw [mul_add_eq_mod_add a x base d, Nat.add_mul_div_left _ _ hd, Nat.add_comm]

theorem mod_step (a x base d : ℕ) : (a * base + x) % d = (a % d * base + x) % d := by
  rw [mul_add_eq_mod_add a x base d, Nat.add_mul_mod_self_left]

theorem div_step_lt {r x base d : ℕ} (hr : r < d) (hx : x < base) : (r * base + x) / d < base := by
  apply Nat.div_lt_of_lt_mul
  calc r * base + x < r * base + base := by omega
    _ = (r + 1) * base := by ring
    _ ≤ d * base := Nat.mul_le_mul_right _ hr

end Radix
