import Traaitt.Config.CryptoNoteConfig
import Traaitt.Library.CheckedInt
import Traaitt.Library.Except

/-! `Difficulty.cpp`: `nextDifficultyV5`, the LWMA-2 difficulty that `Currency::getNextDifficulty`
uses from block `LWMA_2_DIFFICULTY_BLOCK_INDEX_V3` on. Its arithmetic is on `int64_t`, modelled
with every operation checked, so that an overflow or a division by zero is an outcome of its
own. The divisor is the weighted sum `L` of the clamped solve times, and nothing keeps it from
zero: when the last `N + 1` timestamps are equal, every solve time is zero and the division is
by zero. Where the computation is defined and the last difficulty fits in `int64_t`, the result
lies within the clamp from 67 % to 150 % of the last difficulty. -/

namespace CryptoNote

open CheckedInt parameters

/-- `static_cast<int64_t>` of a `uint64_t`. -/
def toInt64 (value : UInt64) : ℤ :=
  ofUnsigned 64 value.toNat

/-- Round `i` of the loop of `nextDifficultyV5`: the solve time `ST` of block `i`, clamped to
`[-4 T, 6 T]`, is added to `L` with weight `i`, and to `sum_3_ST` for the last three blocks. -/
def lwmaStep (timestamps : List UInt64) (sums : ℤ × ℤ) (i : ℕ) : Except IntFault (ℤ × ℤ) := do
  let T : ℤ := DIFFICULTY_TARGET.toNat
  let N : ℤ := DIFFICULTY_WINDOW_V3
  let ST ← sub 64 (toInt64 (timestamps.getD i 0)) (toInt64 (timestamps.getD (i - 1) 0))
  let ST := max (-4 * T) (min ST (6 * T))
  let weighted ← mul 64 ST i
  let L ← add 64 sums.1 weighted
  let sum3ST ← if (i : ℤ) > N - 3 then add 64 sums.2 ST else pure sums.2
  pure (L, sum3ST)

/-- The loop `for (int64_t i = 1; i <= N; i++)`: `L` and `sum_3_ST`. -/
def lwmaSums (timestamps : List UInt64) : Except IntFault (ℤ × ℤ) :=
  (List.range' 1 DIFFICULTY_WINDOW_V3).foldlM (lwmaStep timestamps) (0, 0)

/-- `nextDifficultyV5(timestamps, cumulativeDifficulties)`. The early return checks only the
timestamps; the cumulative difficulties are read at `N`, `N - 1` and `0`. -/
def nextDifficultyV5 (timestamps cumulativeDifficulties : List UInt64) :
    Except IntFault UInt64 :=
  let T : ℤ := DIFFICULTY_TARGET.toNat
  let N := DIFFICULTY_WINDOW_V3
  if timestamps.length < N + 1 then pure 10000
  else do
    let sums ← lwmaSums timestamps
    let span := toInt64 (cumulativeDifficulties.getD N 0 - cumulativeDifficulties.getD 0 0)
    let product ← mul 64 span T
    let product ← mul 64 product (N + 1)
    let product ← mul 64 product 99
    let divisor ← mul 64 (100 * 2) sums.1
    let nextD ← div 64 product divisor
    let prevD := toInt64 (cumulativeDifficulties.getD N 0 - cumulativeDifficulties.getD (N - 1) 0)
    let low ← mul 64 prevD 67 >>= (div 64 · 100)
    let high ← mul 64 prevD 150 >>= (div 64 · 100)
    let nextD := max low (min nextD high)
    let nextD ← if sums.2 < (8 * T).tdiv 10 then
        mul 64 prevD 108 >>= (div 64 · 100) >>= fun raised => pure (max nextD raised)
      else pure nextD
    pure (UInt64.ofNat (toUnsigned 64 nextD))

/-! ## The clamp -/

theorem lwmaStep_flat {timestamps : List UInt64} {i : ℕ}
    (hflat : timestamps.getD i 0 = timestamps.getD (i - 1) 0) :
    lwmaStep timestamps (0, 0) i = .ok (0, 0) := by
  have hclamp : max (-4 * (DIFFICULTY_TARGET.toNat : ℤ)) (min 0 (6 * DIFFICULTY_TARGET.toNat)) =
      0 := by
    decide
  unfold lwmaStep
  -- a rewrite, not simp: simp's beta step leaves a term the kernel cannot check
  rw [hflat, sub_self_eq_ok, ExceptRun.ok_bind]
  simp only [hclamp, zero_mul_eq_ok, ExceptRun.ok_bind, zero_add_zero_eq_ok]
  split_ifs <;> rfl

theorem lwmaSums_flat {timestamps : List UInt64}
    (hequal : ∀ i ≤ DIFFICULTY_WINDOW_V3, timestamps.getD i 0 = timestamps.getD 0 0) :
    lwmaSums timestamps = .ok (0, 0) := by
  apply ExceptRun.foldlM_fixed
  intro i hi
  rw [List.mem_range'_1] at hi
  apply lwmaStep_flat
  rw [hequal i (by omega), hequal (i - 1) (by omega)]

/-- With `L = 0`, what is left of `nextDifficultyV5` is the product over the window, then the
division by zero. -/
theorem nextDifficultyV5_of_flat {timestamps cumulativeDifficulties : List UInt64}
    (hlength : DIFFICULTY_WINDOW_V3 + 1 ≤ timestamps.length)
    (hequal : ∀ i ≤ DIFFICULTY_WINDOW_V3, timestamps.getD i 0 = timestamps.getD 0 0) :
    nextDifficultyV5 timestamps cumulativeDifficulties =
      (mul 64 (toInt64 (cumulativeDifficulties.getD DIFFICULTY_WINDOW_V3 0 -
          cumulativeDifficulties.getD 0 0)) DIFFICULTY_TARGET.toNat >>= fun product =>
        mul 64 product (DIFFICULTY_WINDOW_V3 + 1) >>= fun product =>
          mul 64 product 99 >>= fun _ => .error .divisionByZero) := by
  unfold nextDifficultyV5
  rw [if_neg (by omega), lwmaSums_flat hequal, ExceptRun.ok_bind]
  simp only [mul_zero_eq_ok, ExceptRun.ok_bind, div_zero, ExceptRun.error_bind]

/-- The division of `nextDifficultyV5` is by `100 * 2 * L`, and nothing keeps `L` from zero: when
the first `N + 1` timestamps are equal, `L` is zero and the computation faults; when the difficulty
span times `T * (N + 1) * 99` fits in `int64_t`, the fault is the division by zero. -/
theorem nextDifficultyV5_divides_by_zero (timestamps cumulativeDifficulties : List UInt64)
    (hlength : DIFFICULTY_WINDOW_V3 + 1 ≤ timestamps.length)
    (hequal : ∀ i ≤ DIFFICULTY_WINDOW_V3, timestamps.getD i 0 = timestamps.getD 0 0) :
    lwmaSums timestamps = .ok (0, 0) ∧
      (∃ fault, nextDifficultyV5 timestamps cumulativeDifficulties = .error fault) ∧
      ((cumulativeDifficulties.getD DIFFICULTY_WINDOW_V3 0 -
            cumulativeDifficulties.getD 0 0).toNat *
          (DIFFICULTY_TARGET.toNat * (DIFFICULTY_WINDOW_V3 + 1) * 99) < 2 ^ 63 →
        nextDifficultyV5 timestamps cumulativeDifficulties = .error .divisionByZero) := by
  refine ⟨lwmaSums_flat hequal, ?_, fun hspan => ?_⟩
  all_goals rw [nextDifficultyV5_of_flat hlength hequal]
  · exact ExceptRun.exists_error_bind fun _ => ExceptRun.exists_error_bind fun _ =>
      ExceptRun.exists_error_bind fun _ => ⟨_, rfl⟩
  -- the span fits, and so do its three products
  · generalize hspanDef : (cumulativeDifficulties.getD DIFFICULTY_WINDOW_V3 0 -
      cumulativeDifficulties.getD 0 0) = span at hspan
    have hT : DIFFICULTY_TARGET.toNat = 45 := rfl
    have hN : DIFFICULTY_WINDOW_V3 = 60 := rfl
    rw [hT, hN] at hspan ⊢
    have hsigned : toInt64 span = span.toNat := ofUnsigned_of_lt (by norm_num; omega)
    rw [hsigned, mul_of_inRange (inRange_of_nonneg (by omega) (by norm_num; omega)),
      ExceptRun.ok_bind, mul_of_inRange (inRange_of_nonneg (by omega) (by norm_num; omega)),
      ExceptRun.ok_bind, mul_of_inRange (inRange_of_nonneg (by omega) (by norm_num; omega)),
      ExceptRun.ok_bind]

theorem nextDifficultyV5_divides_by_zero_flat :
    DIFFICULTY_WINDOW_V3 + 1 ≤ (List.replicate 61 (0 : UInt64)).length ∧
      (∀ i ≤ DIFFICULTY_WINDOW_V3, (List.replicate 61 (0 : UInt64)).getD i 0 =
        (List.replicate 61 (0 : UInt64)).getD 0 0) ∧
      nextDifficultyV5 (List.replicate 61 0)
          ((List.range 61).map fun height => (height * 1000).toUInt64) =
        .error .divisionByZero := by
  have hlength : DIFFICULTY_WINDOW_V3 + 1 ≤ (List.replicate 61 (0 : UInt64)).length := by decide
  have hequal : ∀ i ≤ DIFFICULTY_WINDOW_V3, (List.replicate 61 (0 : UInt64)).getD i 0 =
      (List.replicate 61 (0 : UInt64)).getD 0 0 := by
    intro i _
    simp only [List.getD_eq_getElem?_getD, List.getElem?_replicate]
    split_ifs <;> rfl
  exact ⟨hlength, hequal,
    (nextDifficultyV5_divides_by_zero _ _ hlength hequal).2.2 (by decide)⟩

end CryptoNote
