import Mathlib.Data.Nat.Digits.Defs
import Mathlib.Data.Nat.Bitwise

/-! Base-128 varints: a number as bytes of seven bits each, lowest first, with the high bit
set on every byte but the last. `encode` is the shortest such form; a byte list is that form
exactly when its high bits mark every byte but the last and its last byte is non-zero unless
it stands alone (`encode_value`). Readers of varints with their own overflow and end-of-input
rules reduce their canonicity to this fact. -/

namespace Leb128

/-! ## Bytes -/

theorem toNat_and_0x7f (b : UInt8) : (b &&& 0x7f).toNat = b.toNat % 128 := by
  rw [UInt8.toNat_and]
  exact Nat.and_two_pow_sub_one_eq_mod b.toNat 7

theorem and_0x80_eq_zero (b : UInt8) : b &&& 0x80 = 0 ↔ b.toNat < 128 := by
  have key : ∀ i : Fin 256, (i.val &&& 128 = 0 ↔ i.val < 128) := by decide +kernel
  rw [← UInt8.toNat_inj, UInt8.toNat_and]
  exact key ⟨b.toNat, b.toNat_lt⟩

theorem toNat_ofNat_and_or (n : ℕ) :
    ((UInt8.ofNat n &&& 0x7f) ||| 0x80).toNat = n % 128 + 128 := by
  have hlow : (UInt8.ofNat n &&& 0x7f).toNat = n % 128 := by
    rw [toNat_and_0x7f, UInt8.toNat_ofNat', Nat.mod_mod_of_dvd n (by norm_num)]
  have h80 : (0x80 : UInt8).toNat = 2 ^ 7 * 1 := rfl
  rw [UInt8.toNat_or, hlow, h80, Nat.or_comm,
    ← Nat.two_pow_add_eq_or_of_lt (Nat.mod_lt n (show 0 < 2 ^ 7 by norm_num))]
  omega

theorem toNat_or_shiftLeft (acc : UInt64) {x s : ℕ} (hacc : acc.toNat < 2 ^ s) (hs : s < 64)
    (hx : x * 2 ^ s < 2 ^ 64) :
    (acc ||| (UInt64.ofNat x <<< UInt64.ofNat s)).toNat = acc.toNat + x * 2 ^ s := by
  have hx64 : x < 2 ^ 64 := lt_of_le_of_lt (Nat.le_mul_of_pos_right x (Nat.two_pow_pos s)) hx
  rw [UInt64.toNat_or, UInt64.toNat_shiftLeft, UInt64.toNat_ofNat', UInt64.toNat_ofNat',
    Nat.mod_eq_of_lt hx64, Nat.mod_eq_of_lt (show s < 2 ^ 64 by omega),
    Nat.mod_eq_of_lt (show s < 64 by omega), Nat.shiftLeft_eq, Nat.mod_eq_of_lt hx,
    Nat.or_comm, Nat.mul_comm, ← Nat.two_pow_add_eq_or_of_lt hacc]
  omega

/-! ## The shortest form -/

/-- The varint of `n`. -/
def encode (n : ℕ) : List UInt8 :=
  if n < 128 then [UInt8.ofNat n] else UInt8.ofNat (n % 128 + 128) :: encode (n / 128)
termination_by n
decreasing_by omega

/-- The number the seven-bit groups of `bytes` stand for, lowest first. -/
def value (bytes : List UInt8) : ℕ :=
  Nat.ofDigits 128 (bytes.map fun b => b.toNat % 128)

variable {n : ℕ}

theorem encode_of_lt (h : n < 128) : encode n = [UInt8.ofNat n] := by
  rw [encode, if_pos h]

theorem encode_of_le (h : 128 ≤ n) :
    encode n = UInt8.ofNat (n % 128 + 128) :: encode (n / 128) := by
  rw [encode, if_neg (by omega)]

theorem encode_ne_nil (n : ℕ) : encode n ≠ [] := by
  rw [encode]; split <;> simp

@[simp] theorem value_nil : value [] = 0 := rfl

theorem value_cons (b : UInt8) (bytes : List UInt8) :
    value (b :: bytes) = b.toNat % 128 + 128 * value bytes := by
  simp [value, Nat.ofDigits_cons]

theorem length_encode_le {k : ℕ} (h : n < 128 ^ (k + 1)) : (encode n).length ≤ k + 1 := by
  induction k generalizing n with
  | zero => rw [encode_of_lt (by simpa using h)]; simp
  | succ k ih =>
    by_cases hn : n < 128
    · rw [encode_of_lt hn]; simp
    · have hdiv : n / 128 < 128 ^ (k + 1) := by
        rw [Nat.div_lt_iff_lt_mul (by norm_num), ← pow_succ]
        exact h
      rw [encode_of_le (by omega), List.length_cons]
      exact Nat.succ_le_succ (ih hdiv)

/-- The shape of `encode n`: the high bit on every byte but the last, a last byte that is
non-zero unless it stands alone. -/
theorem encode_shape (n : ℕ) :
    ∃ init last, encode n = init ++ [last] ∧ (∀ b ∈ init, 128 ≤ b.toNat) ∧
      last.toNat < 128 ∧ (init ≠ [] → last ≠ 0) := by
  induction n using Nat.strongRecOn with
  | ind n ih =>
    by_cases h : n < 128
    · refine ⟨[], UInt8.ofNat n, encode_of_lt h, by simp, ?_, by simp⟩
      rw [UInt8.toNat_ofNat', Nat.mod_eq_of_lt (by omega)]
      exact h
    · obtain ⟨init, last, heq, hinit, hlast, hcanon⟩ := ih (n / 128) (by omega)
      refine ⟨UInt8.ofNat (n % 128 + 128) :: init, last, ?_, ?_, hlast, fun _ => ?_⟩
      · rw [encode_of_le (by omega), heq, List.cons_append]
      · intro b hb
        rcases List.mem_cons.1 hb with rfl | hb
        · rw [UInt8.toNat_ofNat', Nat.mod_eq_of_lt (by omega)]
          omega
        · exact hinit b hb
      · -- the last byte of a number of two or more groups carries its top group
        rcases init with _ | ⟨b, init⟩
        · have hsmall : n / 128 < 128 := by
            by_contra hbig
            have := encode_of_le (show 128 ≤ n / 128 by omega)
            rw [heq] at this
            exact encode_ne_nil _ (List.cons_eq_cons.1 this).2.symm
          rw [encode_of_lt hsmall] at heq
          rw [← (List.cons_eq_cons.1 heq).1]
          intro hzero
          have := congrArg UInt8.toNat hzero
          rw [UInt8.toNat_ofNat', Nat.mod_eq_of_lt (by omega)] at this
          simp at this
          omega
        · exact hcanon (List.cons_ne_nil b init)

theorem value_append_pos (init : List UInt8) {last : UInt8} (hlast : last.toNat % 128 ≠ 0) :
    0 < value (init ++ [last]) := by
  induction init with
  | nil => rw [List.nil_append, value_cons, value_nil]; omega
  | cons b init ih => rw [List.cons_append, value_cons]; omega

theorem encode_value {init : List UInt8} {last : UInt8} (hinit : ∀ b ∈ init, 128 ≤ b.toNat)
    (hlast : last.toNat < 128) (hcanon : init ≠ [] → last ≠ 0) :
    encode (value (init ++ [last])) = init ++ [last] := by
  induction init with
  | nil =>
    rw [List.nil_append, value_cons, value_nil, Nat.mod_eq_of_lt hlast, Nat.mul_zero,
      Nat.add_zero, encode_of_lt hlast, UInt8.ofNat_toNat]
  | cons b init ih =>
    have hb : 128 ≤ b.toNat := hinit b List.mem_cons_self
    have hlast0 : last.toNat % 128 ≠ 0 := by
      have : last.toNat ≠ 0 := fun h => hcanon (List.cons_ne_nil b init) (UInt8.toNat_inj.1 h)
      omega
    have hrest : encode (value (init ++ [last])) = init ++ [last] :=
      ih (fun x hx => hinit x (List.mem_cons_of_mem b hx)) (fun _ h => by simp [h] at hlast0)
    have hpos := value_append_pos init hlast0
    have hbyte : UInt8.ofNat ((b.toNat % 128 + 128 * value (init ++ [last])) % 128 + 128) = b := by
      rw [Nat.add_mul_mod_self_left, Nat.mod_mod, ← UInt8.toNat_inj, UInt8.toNat_ofNat',
        Nat.mod_eq_of_lt (by omega)]
      have := b.toNat_lt
      omega
    have hhigh : (b.toNat % 128 + 128 * value (init ++ [last])) / 128 = value (init ++ [last]) := by
      omega
    rw [List.cons_append, value_cons, encode_of_le (by omega), hbyte, hhigh, hrest]

end Leb128
