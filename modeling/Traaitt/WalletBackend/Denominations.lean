import Mathlib.Algebra.Order.BigOperators.Group.List
import Mathlib.Tactic.NormNum
import Mathlib.Tactic.Ring
import Traaitt.Config.CryptoNoteConfig

/-! `splitAmountIntoDenominations` and `verifyAmounts` of `Transfer.cpp`. An amount is sent as
one output for each non-zero decimal digit, the digit times its power of ten; with
`preventTooLargeOutputs` a denomination above `MAX_OUTPUT_SIZE_CLIENT` is cut into ten equal
parts one digit shorter, and each part again into ten while it is still too large. So every
output is a digit from 1 to 9 times a power of ten, which is what `PRETTY_AMOUNTS` lists, and
the outputs add up to the amount. -/

namespace SendTransaction

open CryptoNote.parameters Constants

/-- The inner loop: while `splitAmount > MAX_OUTPUT_SIZE_CLIENT`, divide it by ten and make ten
times as many of it. -/
def splitLargeDenomination (splitAmount numSplitAmounts : UInt64) : UInt64 × UInt64 :=
  if splitAmount > MAX_OUTPUT_SIZE_CLIENT then
    splitLargeDenomination (splitAmount / 10) (numSplitAmounts * 10)
  else (splitAmount, numSplitAmounts)
termination_by splitAmount.toNat
decreasing_by
  rename_i hlarge
  rw [gt_iff_lt, UInt64.lt_iff_toNat_lt] at hlarge
  rw [UInt64.toNat_div]
  exact Nat.div_lt_self (by omega) (by decide)

/-- The outputs the loop body makes of one digit's `denomination`: ten or more equal parts when
it is too large, nothing when it is zero. -/
def denominationOutputs (denomination : UInt64) (preventTooLargeOutputs : Bool) : List UInt64 :=
  if denomination > MAX_OUTPUT_SIZE_CLIENT && preventTooLargeOutputs then
    let (splitAmount, numSplitAmounts) := splitLargeDenomination (denomination / 10) 10
    List.replicate numSplitAmounts.toNat splitAmount
  -- 1010 is 1000 + 10, not 1000 + 0 + 10 + 0
  else if denomination ≠ 0 then [denomination]
  else []

/-- The loop of `splitAmountIntoDenominations`, from the digit of `amount % 10` with the place
value `multiplier`. -/
def splitAmountIntoDenominationsLoop (preventTooLargeOutputs : Bool) (amount multiplier : UInt64) :
    List UInt64 :=
  if amount > 0 then
    let denomination := multiplier * (amount % 10)
    denominationOutputs denomination preventTooLargeOutputs ++
      splitAmountIntoDenominationsLoop preventTooLargeOutputs (amount / 10) (multiplier * 10)
  else []
termination_by amount.toNat
decreasing_by
  rename_i hpos
  rw [gt_iff_lt, UInt64.lt_iff_toNat_lt, UInt64.toNat_zero] at hpos
  rw [UInt64.toNat_div]
  exact Nat.div_lt_self hpos (by decide)

/-- `splitAmountIntoDenominations(amount, preventTooLargeOutputs)`. -/
def splitAmountIntoDenominations (amount : UInt64) (preventTooLargeOutputs : Bool) :
    List UInt64 :=
  splitAmountIntoDenominationsLoop preventTooLargeOutputs amount 1

/-- `verifyAmounts(std::vector<uint64_t>)`: every amount is one of `PRETTY_AMOUNTS`. -/
def verifyAmounts (amounts : List UInt64) : Bool :=
  amounts.all fun amount => PRETTY_AMOUNTS.contains amount

/-- A digit from 1 to 9 times a power of ten. -/
def IsDenomination (x : ℕ) : Prop :=
  ∃ d k, 1 ≤ d ∧ d ≤ 9 ∧ x = d * 10 ^ k

/-! ## `PRETTY_AMOUNTS` -/

theorem toNat_MAX_OUTPUT_SIZE_CLIENT : MAX_OUTPUT_SIZE_CLIENT.toNat = 800000000000000 :=
  rfl

theorem toNat_ten : (10 : UInt64).toNat = 10 :=
  rfl

/-- `PRETTY_AMOUNTS` by its rule: the digits 1 to 9 at each place up to `10 ^ 18`, then
`10 ^ 19`. -/
theorem PRETTY_AMOUNTS_eq : PRETTY_AMOUNTS =
    (List.range 19).flatMap (fun k => (List.range 9).map fun d => UInt64.ofNat ((d + 1) * 10 ^ k)) ++
      [UInt64.ofNat (10 ^ 19)] := by
  decide +kernel

theorem mem_PRETTY_AMOUNTS_iff (x : UInt64) : x ∈ PRETTY_AMOUNTS ↔ IsDenomination x.toNat := by
  rw [PRETTY_AMOUNTS_eq, List.mem_append, List.mem_flatMap, List.mem_singleton]
  constructor
  · rintro (⟨k, hk, hx⟩ | rfl)
    · obtain ⟨d, hd, rfl⟩ := List.mem_map.1 hx
      rw [List.mem_range] at hk hd
      have hpow : 10 ^ k ≤ 10 ^ 18 := Nat.pow_le_pow_right (by norm_num) (by omega)
      have hlt : (d + 1) * 10 ^ k < 2 ^ 64 :=
        calc (d + 1) * 10 ^ k ≤ 9 * 10 ^ 18 := Nat.mul_le_mul (by omega) hpow
          _ < 2 ^ 64 := by norm_num
      exact ⟨d + 1, k, by omega, by omega, by rw [UInt64.toNat_ofNat', Nat.mod_eq_of_lt hlt]⟩
    · exact ⟨1, 19, le_refl 1, by norm_num, rfl⟩
  · rintro ⟨d, k, hd1, hd9, hx⟩
    have hlt := x.toNat_lt
    by_cases hk : k < 19
    · left
      refine ⟨k, List.mem_range.2 hk, List.mem_map.2 ⟨d - 1, List.mem_range.2 (by omega), ?_⟩⟩
      rw [← UInt64.toNat_inj, UInt64.toNat_ofNat', Nat.sub_add_cancel hd1, ← hx,
        Nat.mod_eq_of_lt hlt]
    · right
      -- from the twentieth place on nothing fits in 64 bits, and at the nineteenth only 1 does
      have hk19 : k = 19 := by
        by_contra hne
        have h20 : 10 ^ 20 ≤ 10 ^ k := Nat.pow_le_pow_right (by norm_num) (by omega)
        have : 10 ^ k ≤ d * 10 ^ k := Nat.le_mul_of_pos_left _ (by omega)
        omega
      subst hk19
      have hd : d = 1 := by omega
      rw [← UInt64.toNat_inj, hx, hd]
      rfl

/-! ## The inner loop -/

/-- A too large part `d * 10 ^ m`, counted `10 ^ j` times, ends as `10 ^ (j + (m - m'))` parts
`d * 10 ^ m'` that fit. -/
theorem splitLargeDenomination_spec {d : ℕ} (hd1 : 1 ≤ d) (hd9 : d ≤ 9)
    (splitAmount numSplitAmounts : UInt64) {m j : ℕ} (hsplit : splitAmount.toNat = d * 10 ^ m)
    (hnum : numSplitAmounts.toNat = 10 ^ j) (hfit : d * 10 ^ (m + j) < 2 ^ 64) :
    ∃ m' ≤ m, (splitLargeDenomination splitAmount numSplitAmounts).1.toNat = d * 10 ^ m' ∧
      (splitLargeDenomination splitAmount numSplitAmounts).2.toNat = 10 ^ (j + (m - m')) ∧
      (splitLargeDenomination splitAmount numSplitAmounts).1 ≤ MAX_OUTPUT_SIZE_CLIENT := by
  induction splitAmount, numSplitAmounts using splitLargeDenomination.induct generalizing m j with
  | case1 splitAmount numSplitAmounts hlarge ih =>
    rw [gt_iff_lt, UInt64.lt_iff_toNat_lt, toNat_MAX_OUTPUT_SIZE_CLIENT] at hlarge
    -- a single digit is never too large, so the part has a zero to drop
    obtain ⟨m, rfl⟩ : ∃ m₀, m = m₀ + 1 := by
      refine Nat.exists_eq_add_one.2 (Nat.pos_of_ne_zero fun hm => ?_)
      rw [hm, pow_zero, Nat.mul_one] at hsplit
      omega
    have hdiv : (splitAmount / 10).toNat = d * 10 ^ m := by
      rw [UInt64.toNat_div, hsplit, pow_succ, ← Nat.mul_assoc]
      exact Nat.mul_div_cancel _ (by norm_num)
    have hmore : 10 ^ (j + 1) ≤ d * 10 ^ (m + 1 + j) :=
      calc 10 ^ (j + 1) ≤ 10 ^ (m + 1 + j) := Nat.pow_le_pow_right (by norm_num) (by omega)
        _ ≤ d * 10 ^ (m + 1 + j) := Nat.le_mul_of_pos_left _ hd1
    have hnum' : (numSplitAmounts * 10).toNat = 10 ^ (j + 1) := by
      rw [UInt64.toNat_mul, hnum, toNat_ten, ← pow_succ]
      exact Nat.mod_eq_of_lt (by simpa using lt_of_le_of_lt hmore hfit)
    obtain ⟨m', hm', hpart, hcount, hmax⟩ :=
      ih hdiv hnum' (by rw [show m + (j + 1) = m + 1 + j by omega]; exact hfit)
    rw [splitLargeDenomination, if_pos (by rw [gt_iff_lt, UInt64.lt_iff_toNat_lt]; exact hlarge)]
    refine ⟨m', by omega, hpart, ?_, hmax⟩
    rw [hcount]
    congr 1
    omega
  | case2 splitAmount numSplitAmounts hsmall =>
    rw [splitLargeDenomination, if_neg hsmall]
    exact ⟨m, le_refl m, hsplit, by rw [hnum, Nat.sub_self, Nat.add_zero], UInt64.not_lt.1 hsmall⟩

/-! ## The loop body and the loop -/

/-- What every output satisfies: non-zero, a digit times a power of ten, and no larger than
`MAX_OUTPUT_SIZE_CLIENT` when too large outputs are prevented. -/
def OutputOk (preventTooLargeOutputs : Bool) (x : UInt64) : Prop :=
  x ≠ 0 ∧ IsDenomination x.toNat ∧ (preventTooLargeOutputs = true → x ≤ MAX_OUTPUT_SIZE_CLIENT)

theorem outputOk_of_toNat {preventTooLargeOutputs : Bool} {x : UInt64} {d k : ℕ} (hd1 : 1 ≤ d)
    (hd9 : d ≤ 9) (hx : x.toNat = d * 10 ^ k)
    (hmax : preventTooLargeOutputs = true → x ≤ MAX_OUTPUT_SIZE_CLIENT) :
    OutputOk preventTooLargeOutputs x := by
  refine ⟨fun hzero => ?_, ⟨d, k, hd1, hd9, hx⟩, hmax⟩
  rw [hzero, UInt64.toNat_zero] at hx
  have : 0 < d * 10 ^ k := Nat.mul_pos hd1 (Nat.pow_pos (by norm_num))
  omega

theorem denominationOutputs_spec {denomination : UInt64} {d k : ℕ} (hd9 : d ≤ 9)
    (hden : denomination.toNat = d * 10 ^ k) (preventTooLargeOutputs : Bool) :
    ((denominationOutputs denomination preventTooLargeOutputs).map UInt64.toNat).sum =
        denomination.toNat ∧
      ∀ x ∈ denominationOutputs denomination preventTooLargeOutputs,
        OutputOk preventTooLargeOutputs x := by
  unfold denominationOutputs
  by_cases hsplit : denomination > MAX_OUTPUT_SIZE_CLIENT ∧ preventTooLargeOutputs = true
  · rw [if_pos (by simpa using hsplit)]
    have hlarge := hsplit.1
    rw [gt_iff_lt, UInt64.lt_iff_toNat_lt, toNat_MAX_OUTPUT_SIZE_CLIENT, hden] at hlarge
    have hd1 : 1 ≤ d := by
      by_contra hd
      rw [show d = 0 by omega, Nat.zero_mul] at hlarge
      omega
    -- a single digit is never too large, so the denomination has a zero to drop
    obtain ⟨k, rfl⟩ : ∃ k₀, k = k₀ + 1 := by
      refine Nat.exists_eq_add_one.2 (Nat.pos_of_ne_zero fun hk => ?_)
      rw [hk, pow_zero, Nat.mul_one] at hlarge
      omega
    have hdiv : (denomination / 10).toNat = d * 10 ^ k := by
      rw [UInt64.toNat_div, hden, pow_succ, ← Nat.mul_assoc]
      exact Nat.mul_div_cancel _ (by norm_num)
    obtain ⟨m', hm', hpart, hcount, hmax⟩ := splitLargeDenomination_spec hd1 hd9 _ 10 hdiv
      (j := 1) rfl (by rw [← hden]; exact denomination.toNat_lt)
    generalize splitLargeDenomination (denomination / 10) 10 = result at hpart hcount hmax
    obtain ⟨splitAmount, numSplitAmounts⟩ := result
    refine ⟨?_, fun x hx => ?_⟩
    · -- `10 ^ (1 + (k - m'))` parts of `d * 10 ^ m'`
      dsimp only at hpart hcount ⊢
      rw [List.map_replicate, List.sum_replicate_nat, hcount, hpart, hden,
        Nat.mul_left_comm, ← pow_add]
      congr 2
      omega
    · rw [List.eq_of_mem_replicate hx]
      exact outputOk_of_toNat hd1 hd9 hpart fun _ => hmax
  · rw [if_neg (by simpa using hsplit)]
    by_cases hzero : denomination = 0
    · rw [if_neg (not_not.2 hzero)]
      simp [hzero]
    · rw [if_pos hzero]
      have hd1 : 1 ≤ d := by
        by_contra hd
        rw [show d = 0 by omega, Nat.zero_mul, ← UInt64.toNat_zero, UInt64.toNat_inj] at hden
        exact hzero hden
      refine ⟨by simp, fun x hx => ?_⟩
      rw [List.mem_singleton.1 hx]
      exact outputOk_of_toNat hd1 hd9 hden fun hprevent =>
        UInt64.not_lt.1 fun h => hsplit ⟨h, hprevent⟩

/-- The loop from place `k` adds up the rest of the amount at that place, and every output is
fine. The place value `multiplier` is `10 ^ k` as a 64-bit number: it wraps only after the last
digit. -/
theorem splitAmountIntoDenominationsLoop_spec (preventTooLargeOutputs : Bool)
    (amount multiplier : UInt64) {k : ℕ} (hmultiplier : multiplier.toNat = 10 ^ k % 2 ^ 64)
    (hfit : amount.toNat * 10 ^ k < 2 ^ 64) :
    ((splitAmountIntoDenominationsLoop preventTooLargeOutputs amount multiplier).map
        UInt64.toNat).sum = amount.toNat * 10 ^ k ∧
      ∀ x ∈ splitAmountIntoDenominationsLoop preventTooLargeOutputs amount multiplier,
        OutputOk preventTooLargeOutputs x := by
  induction amount, multiplier using splitAmountIntoDenominationsLoop.induct generalizing k with
  | case1 amount multiplier hpos ih =>
    have hpos' : 0 < amount.toNat := by
      rwa [gt_iff_lt, UInt64.lt_iff_toNat_lt, UInt64.toNat_zero] at hpos
    have hplace : 10 ^ k < 2 ^ 64 :=
      lt_of_le_of_lt (Nat.le_mul_of_pos_left _ hpos') hfit
    rw [Nat.mod_eq_of_lt hplace] at hmultiplier
    -- the digit's denomination does not wrap
    have hden : (multiplier * (amount % 10)).toNat = amount.toNat % 10 * 10 ^ k := by
      have hle : amount.toNat % 10 * 10 ^ k ≤ amount.toNat * 10 ^ k :=
        Nat.mul_le_mul_right _ (Nat.mod_le _ _)
      rw [UInt64.toNat_mul, UInt64.toNat_mod, hmultiplier, Nat.mul_comm, toNat_ten,
        Nat.mod_eq_of_lt (by omega)]
    have hmultiplier' : (multiplier * 10).toNat = 10 ^ (k + 1) % 2 ^ 64 := by
      rw [UInt64.toNat_mul, hmultiplier, toNat_ten, ← pow_succ]
    have hfit' : (amount / 10).toNat * 10 ^ (k + 1) < 2 ^ 64 := by
      have hle : amount.toNat / 10 * 10 * 10 ^ k ≤ amount.toNat * 10 ^ k :=
        Nat.mul_le_mul_right _ (Nat.div_mul_le_self _ _)
      rw [UInt64.toNat_div, toNat_ten]
      calc amount.toNat / 10 * 10 ^ (k + 1) = amount.toNat / 10 * 10 * 10 ^ k := by
            rw [pow_succ]; ring
        _ ≤ amount.toNat * 10 ^ k := hle
        _ < 2 ^ 64 := hfit
    obtain ⟨hsum, hok⟩ := denominationOutputs_spec (by omega) hden preventTooLargeOutputs
    obtain ⟨hsum', hok'⟩ := ih hmultiplier' hfit'
    rw [splitAmountIntoDenominationsLoop, if_pos hpos]
    refine ⟨?_, fun x hx => ?_⟩
    · rw [List.map_append, List.sum_append, hsum, hden, hsum', UInt64.toNat_div,
        toNat_ten, pow_succ]
      -- the digit and the digits above it make the amount
      calc amount.toNat % 10 * 10 ^ k + amount.toNat / 10 * (10 ^ k * 10)
          = (amount.toNat % 10 + 10 * (amount.toNat / 10)) * 10 ^ k := by ring
        _ = amount.toNat * 10 ^ k := by rw [Nat.mod_add_div]
    · rcases List.mem_append.1 hx with hx | hx
      · exact hok x hx
      · exact hok' x hx
  | case2 amount multiplier hzero =>
    rw [splitAmountIntoDenominationsLoop, if_neg hzero]
    have : amount.toNat = 0 := by
      rw [gt_iff_lt, UInt64.lt_iff_toNat_lt, UInt64.toNat_zero] at hzero
      omega
    simp [this]

theorem splitAmountIntoDenominations_exact (amount : UInt64) (preventTooLargeOutputs : Bool) :
    (let splitAmounts := splitAmountIntoDenominations amount preventTooLargeOutputs
    (splitAmounts.map UInt64.toNat).sum = amount.toNat ∧
      (∀ x ∈ splitAmounts, x ≠ 0 ∧ IsDenomination x.toNat ∧
        (preventTooLargeOutputs = true → x ≤ MAX_OUTPUT_SIZE_CLIENT)) ∧
      verifyAmounts splitAmounts = true) := by
  obtain ⟨hsum, hok⟩ := splitAmountIntoDenominationsLoop_spec preventTooLargeOutputs amount 1
    (k := 0) rfl (by simpa using amount.toNat_lt)
  rw [pow_zero, Nat.mul_one] at hsum
  refine ⟨hsum, hok, ?_⟩
  rw [verifyAmounts, List.all_eq_true]
  intro x hx
  rw [List.contains_iff_mem, mem_PRETTY_AMOUNTS_iff]
  exact (hok x hx).2.1

end SendTransaction
