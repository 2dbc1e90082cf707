import Mathlib.Order.Basic
import Mathlib.Tactic.Ring

/-! Signed fixed-width arithmetic as C and C++ define it: an operation gives the exact result when
that fits in the `bits`-bit type, and otherwise its behaviour is undefined (signed overflow);
division by zero is undefined too, and division truncates towards zero (`Int.tdiv`). Each
operation here returns the exact result or the fault, so a computation of several is a chain in
`Except IntFault` that stops at its first fault. The conversions from and to the unsigned type of
the same width are two's complement. -/

namespace CheckedInt

/-- What makes a signed operation undefined. -/
inductive IntFault
  | overflow
  | divisionByZero
  deriving DecidableEq, Repr

variable (bits : ℕ)

/-- The values of the signed `bits`-bit type. -/
def InRange (x : ℤ) : Prop :=
  -2 ^ (bits - 1) ≤ x ∧ x < 2 ^ (bits - 1)

instance (x : ℤ) : Decidable (InRange bits x) :=
  inferInstanceAs (Decidable (_ ∧ _))

/-- The exact result, when the type holds it. -/
def checked (x : ℤ) : Except IntFault ℤ :=
  if InRange bits x then .ok x else .error .overflow

def add (a b : ℤ) : Except IntFault ℤ := checked bits (a + b)

def sub (a b : ℤ) : Except IntFault ℤ := checked bits (a - b)

def mul (a b : ℤ) : Except IntFault ℤ := checked bits (a * b)

/-- `a / b`, truncating towards zero. -/
def div (a b : ℤ) : Except IntFault ℤ :=
  if b = 0 then .error .divisionByZero else checked bits (a.tdiv b)

/-- The conversion of an unsigned `bits`-bit value to the signed type. -/
def ofUnsigned (n : ℕ) : ℤ :=
  if n < 2 ^ (bits - 1) then n else n - 2 ^ bits

/-- The conversion of a signed value to the unsigned type, modulo `2 ^ bits`. -/
def toUnsigned (x : ℤ) : ℕ :=
  (x % 2 ^ bits).toNat

variable {bits} {a b c x : ℤ}

@[simp] theorem checked_eq_ok : checked bits x = .ok c ↔ InRange bits x ∧ x = c := by
  by_cases hrange : InRange bits x <;> simp [checked, hrange]

theorem checked_of_inRange (hrange : InRange bits x) : checked bits x = .ok x :=
  if_pos hrange

@[simp] theorem add_eq_ok : add bits a b = .ok c ↔ InRange bits (a + b) ∧ a + b = c :=
  checked_eq_ok

@[simp] theorem sub_eq_ok : sub bits a b = .ok c ↔ InRange bits (a - b) ∧ a - b = c :=
  checked_eq_ok

@[simp] theorem div_zero (a : ℤ) : div bits a 0 = .error .divisionByZero :=
  if_pos rfl

theorem mul_of_inRange (hrange : InRange bits (a * b)) : mul bits a b = .ok (a * b) :=
  checked_of_inRange hrange

theorem inRange_of_nonneg (hnonneg : 0 ≤ x) (hlt : x < 2 ^ (bits - 1)) : InRange bits x := by
  have hpos : (0 : ℤ) < 2 ^ (bits - 1) := Int.pow_pos (by decide)
  exact ⟨by omega, hlt⟩

theorem inRange_zero : InRange bits 0 :=
  inRange_of_nonneg le_rfl (Int.pow_pos (by decide))

@[simp] theorem sub_self_eq_ok (a : ℤ) : sub bits a a = .ok 0 := by
  rw [sub, Int.sub_self]
  exact checked_of_inRange inRange_zero

@[simp] theorem zero_mul_eq_ok (b : ℤ) : mul bits 0 b = .ok 0 := by
  rw [mul, Int.zero_mul]
  exact checked_of_inRange inRange_zero

@[simp] theorem mul_zero_eq_ok (a : ℤ) : mul bits a 0 = .ok 0 := by
  rw [mul, Int.mul_zero]
  exact checked_of_inRange inRange_zero

@[simp] theorem zero_add_zero_eq_ok : add bits 0 0 = .ok 0 :=
  checked_of_inRange inRange_zero

theorem ofUnsigned_of_lt {n : ℕ} (hn : n < 2 ^ (bits - 1)) : ofUnsigned bits n = n :=
  if_pos hn

end CheckedInt
