import Traaitt.WalletBackend.Denominations

/-! `decompose_amount_into_digits` of `CryptoNoteFormatUtils.h`. An amount is handed out digit
by digit from the lowest, each non-zero digit times its power of ten as a chunk, except that the
low digits are gathered as dust while their sum stays within the dust threshold. The first chunk
that does not fit sends the dust out, once. After that the dust is never handed out again, so a
chunk gathered then would be lost; but no non-zero chunk can fit any more, since each is at
least its power of ten and so larger than the one that did not fit. Every value handed out is
non-zero, the values add up to the amount, and at most one of them is dust. -/

namespace CryptoNote

open SendTransaction (IsDenomination)

/-- A call of one of the two handlers: `chunk_handler(chunk)` or `dust_handler(dust)`. -/
inductive AmountPart
  | chunk (value : UInt64)
  | dust (value : UInt64)
  deriving DecidableEq, Repr

namespace AmountPart

def value : AmountPart → UInt64
  | chunk value | dust value => value

def isDust : AmountPart → Bool
  | chunk _ => false
  | dust _ => true

/-- A chunk is a digit from 1 to 9 times a power of ten; dust is non-zero and within the
threshold. -/
def WellFormed (dustThreshold : UInt64) : AmountPart → Prop
  | chunk value => IsDenomination value.toNat
  | dust value => value ≠ 0 ∧ value ≤ dustThreshold

theorem value_ne_zero_of_wellFormed {dustThreshold : UInt64} {part : AmountPart}
    (h : part.WellFormed dustThreshold) : part.value ≠ 0 := by
  cases part with
  | chunk value =>
    obtain ⟨d, k, hd, -, hvalue⟩ := h
    have hpos : 0 < d * 10 ^ k := Nat.mul_pos hd (pow_pos (by decide) k)
    intro hzero
    rw [AmountPart.value] at hzero
    rw [hzero, UInt64.toNat_zero] at hvalue
    omega
  | dust value => exact h.1

end AmountPart

/-- The sum of the values handed out, without wrapping. -/
def partsTotal (parts : List AmountPart) : ℕ :=
  (parts.map fun part => part.value.toNat).sum

/-- The locals of the loop of `decompose_amount_into_digits`, and the handler calls so far. -/
structure DecomposeState where
  amount : UInt64
  dust : UInt64
  order : UInt64
  isDustHandled : Bool
  parts : List AmountPart

namespace DecomposeState

/-- One round of the loop. -/
def step (dustThreshold : UInt64) (s : DecomposeState) : DecomposeState :=
  let chunk := s.amount % 10 * s.order
  let amount := s.amount / 10
  let order := s.order * 10
  if s.dust + chunk ≤ dustThreshold then
    { s with amount, order, dust := s.dust + chunk }
  else
    let handleDust := !s.isDustHandled && s.dust ≠ 0
    let parts := if handleDust then s.parts ++ [.dust s.dust] else s.parts
    let parts := if chunk ≠ 0 then parts ++ [.chunk chunk] else parts
    { s with amount, order, parts, isDustHandled := s.isDustHandled || handleDust }

theorem step_amount (dustThreshold : UInt64) (s : DecomposeState) :
    (s.step dustThreshold).amount = s.amount / 10 := by
  unfold step
  dsimp only
  split <;> rfl

/-- `while (0 != amount)`. -/
def run (dustThreshold : UInt64) (s : DecomposeState) : DecomposeState :=
  if s.amount = 0 then s else (s.step dustThreshold).run dustThreshold
termination_by s.amount.toNat
decreasing_by
  rename_i hne
  rw [step_amount, UInt64.toNat_div]
  have hpos : 0 < s.amount.toNat := by
    rw [Nat.pos_iff_ne_zero, Ne, ← UInt64.toNat_zero, UInt64.toNat_inj]
    exact hne
  exact Nat.div_lt_self hpos (by decide)

end DecomposeState

/-- `decompose_amount_into_digits(amount, dust_threshold, chunk_handler, dust_handler)`: the
handler calls it makes, in order. -/
def decomposeAmountIntoDigits (amount dustThreshold : UInt64) : List AmountPart :=
  if amount = 0 then []
  else
    let s := DecomposeState.run dustThreshold ⟨amount, 0, 1, false, []⟩
    if !s.isDustHandled && s.dust ≠ 0 then s.parts ++ [.dust s.dust] else s.parts

/-- `decomposeAmount`: both handlers push to one vector. -/
def decomposeAmount (amount dustThreshold : UInt64) : List UInt64 :=
  (decomposeAmountIntoDigits amount dustThreshold).map AmountPart.value

/-! ## Sums and counts of handed-out values -/

@[simp] theorem partsTotal_nil : partsTotal [] = 0 := rfl

@[simp] theorem partsTotal_append (parts parts' : List AmountPart) :
    partsTotal (parts ++ parts') = partsTotal parts + partsTotal parts' := by
  simp [partsTotal]

@[simp] theorem partsTotal_singleton (part : AmountPart) :
    partsTotal [part] = part.value.toNat := by
  simp [partsTotal]

@[simp] theorem countP_isDust_append (parts parts' : List AmountPart) :
    (parts ++ parts').countP AmountPart.isDust =
      parts.countP AmountPart.isDust + parts'.countP AmountPart.isDust :=
  List.countP_append

/-! ## One round -/

namespace DecomposeState

variable {dustThreshold : UInt64} {s : DecomposeState}

theorem step_order (dustThreshold : UInt64) (s : DecomposeState) :
    (s.step dustThreshold).order = s.order * 10 := by
  unfold step
  dsimp only
  split <;> rfl

theorem toNat_step_order {k : ℕ} (horder : s.order.toNat = 10 ^ k % 2 ^ 64) :
    (s.step dustThreshold).order.toNat = 10 ^ (k + 1) % 2 ^ 64 := by
  rw [step_order, UInt64.toNat_mul, horder, pow_succ 10 k, Nat.mod_mul_mod]
  rfl

theorem step_of_fits (hfits : s.dust + s.amount % 10 * s.order ≤ dustThreshold) :
    (s.step dustThreshold).dust = s.dust + s.amount % 10 * s.order ∧
      (s.step dustThreshold).isDustHandled = s.isDustHandled ∧
      (s.step dustThreshold).parts = s.parts := by
  unfold step
  dsimp only
  rw [if_pos hfits]
  exact ⟨rfl, rfl, rfl⟩

/-- A chunk that does not fit sends out the dust, unless it has gone out already or is zero,
and then itself, unless it is zero. -/
theorem step_of_not_fits (hfits : ¬s.dust + s.amount % 10 * s.order ≤ dustThreshold) :
    (s.step dustThreshold).dust = s.dust ∧
      (s.step dustThreshold).isDustHandled = (s.isDustHandled || s.dust ≠ 0) ∧
      (s.step dustThreshold).parts = s.parts ++
        ((if !s.isDustHandled && s.dust ≠ 0 then [.dust s.dust] else []) ++
          (if s.amount % 10 * s.order ≠ 0 then [.chunk (s.amount % 10 * s.order)] else [])) := by
  unfold step
  dsimp only
  rw [if_neg hfits]
  refine ⟨rfl, ?_, ?_⟩
  · cases s.isDustHandled <;> simp
  · split_ifs <;> simp

end DecomposeState

/-- What a round that does not fit hands out: the dust, when `handleDust`, and the chunk. -/
theorem partsTotal_handOut (handleDust : Bool) (dust chunk : UInt64) :
    partsTotal ((if handleDust then [AmountPart.dust dust] else []) ++
        (if chunk ≠ 0 then [AmountPart.chunk chunk] else [])) =
      (if handleDust then dust.toNat else 0) + chunk.toNat := by
  by_cases hchunk : chunk = 0
  · subst hchunk
    cases handleDust <;> simp [partsTotal, AmountPart.value]
  · cases handleDust <;> simp [partsTotal, hchunk, AmountPart.value]

theorem countP_isDust_handOut (handleDust : Bool) (dust chunk : UInt64) :
    ((if handleDust then [AmountPart.dust dust] else []) ++
        (if chunk ≠ 0 then [AmountPart.chunk chunk] else [])).countP AmountPart.isDust =
      if handleDust then 1 else 0 := by
  by_cases hchunk : chunk = 0 <;> cases handleDust <;>
    simp [hchunk, List.countP_cons, AmountPart.isDust]

/-! ## The invariant of the loop -/

/-- Place values: the digits left after a round, one place higher, and the digit of the round. -/
theorem digits_split (a k : ℕ) : a * 10 ^ k = a / 10 * 10 ^ (k + 1) + a % 10 * 10 ^ k := by
  have hdiv := Nat.div_add_mod a 10
  calc a * 10 ^ k = (10 * (a / 10) + a % 10) * 10 ^ k := by rw [hdiv]
    _ = _ := by ring

theorem digit_lt_pow (a k : ℕ) : a % 10 * 10 ^ k < 10 ^ (k + 1) := by
  have hdigit := Nat.mod_lt a (by decide : 10 > 0)
  rw [pow_succ, Nat.mul_comm (10 ^ k)]
  exact Nat.mul_lt_mul_of_pos_right hdigit (pow_pos (by decide) k)

/-- What holds after `k` rounds of the loop on `amount₀`: the digits still to go, at their place,
and what has been handed out or is held as dust make up the amount; the dust stays within the
threshold; once the dust has gone out, no non-zero chunk fits with it any more and it is part of
what has been handed out; it has gone out at most once, and every value handed out is well
formed. -/
structure DecomposeInv (amount₀ dustThreshold : UInt64) (k : ℕ) (s : DecomposeState) : Prop where
  order_eq : s.order.toNat = 10 ^ k % 2 ^ 64
  total : s.amount.toNat * 10 ^ k + partsTotal s.parts +
    (if s.isDustHandled then 0 else s.dust.toNat) = amount₀.toNat
  dust_le : s.dust ≤ dustThreshold
  handled : s.isDustHandled = true →
    dustThreshold.toNat < s.dust.toNat + 10 ^ k ∧ s.dust.toNat ≤ partsTotal s.parts
  dust_count : s.parts.countP AmountPart.isDust = if s.isDustHandled then 1 else 0
  wellFormed : ∀ part ∈ s.parts, part.WellFormed dustThreshold

namespace DecomposeInv

variable {amount₀ dustThreshold : UInt64} {k : ℕ} {s : DecomposeState}

theorem init : DecomposeInv amount₀ dustThreshold 0 ⟨amount₀, 0, 1, false, []⟩ where
  order_eq := rfl
  total := by simp
  dust_le := UInt64.zero_le
  handled := by simp
  dust_count := rfl
  wellFormed := by simp

/-- The numbers of a round that starts with digits left: the place value is `10 ^ k` without
wrapping, and the chunk and its sum with the dust fit in 64 bits. -/
theorem round_facts (h : DecomposeInv amount₀ dustThreshold k s) (hne : s.amount ≠ 0) :
    s.order.toNat = 10 ^ k ∧
      (s.amount % 10 * s.order).toNat = s.amount.toNat % 10 * 10 ^ k ∧
      (s.dust + s.amount % 10 * s.order).toNat = s.dust.toNat + s.amount.toNat % 10 * 10 ^ k ∧
      s.dust.toNat + s.amount.toNat * 10 ^ k ≤ amount₀.toNat := by
  have hA := amount₀.toNat_lt
  have hpos : 0 < s.amount.toNat := by
    rw [Nat.pos_iff_ne_zero, Ne, ← UInt64.toNat_zero, UInt64.toNat_inj]
    exact hne
  have htotal := h.total
  -- held as dust or already handed out, the dust is part of the amount
  have hdust : s.dust.toNat + s.amount.toNat * 10 ^ k ≤ amount₀.toNat := by
    cases hhandled : s.isDustHandled
    · simp only [hhandled, Bool.false_eq_true, if_false] at htotal
      omega
    · have hparts := (h.handled hhandled).2
      simp only [hhandled, if_true] at htotal
      omega
  have hpow : 10 ^ k ≤ s.amount.toNat * 10 ^ k := Nat.le_mul_of_pos_left _ hpos
  have horder : s.order.toNat = 10 ^ k := by
    rw [h.order_eq, Nat.mod_eq_of_lt (by omega)]
  have hdigit : s.amount.toNat % 10 * 10 ^ k ≤ s.amount.toNat * 10 ^ k :=
    Nat.mul_le_mul_right _ (Nat.mod_le _ _)
  have hchunk : (s.amount % 10 * s.order).toNat = s.amount.toNat % 10 * 10 ^ k := by
    rw [UInt64.toNat_mul, UInt64.toNat_mod, horder]
    exact Nat.mod_eq_of_lt (by simp only [UInt64.reduceToNat]; omega)
  refine ⟨horder, hchunk, ?_, hdust⟩
  rw [UInt64.toNat_add, hchunk]
  exact Nat.mod_eq_of_lt (by omega)

/-- A chunk that fits is gathered; after the dust has gone out only a zero chunk fits. -/
theorem step_of_fits (h : DecomposeInv amount₀ dustThreshold k s) (hne : s.amount ≠ 0)
    (hfits : s.dust + s.amount % 10 * s.order ≤ dustThreshold) :
    DecomposeInv amount₀ dustThreshold (k + 1) (s.step dustThreshold) := by
  obtain ⟨-, -, hsum, -⟩ := h.round_facts hne
  obtain ⟨hdust', hhandled', hparts'⟩ := DecomposeState.step_of_fits hfits
  have hsplit := digits_split s.amount.toNat k
  have hpow : 10 ^ k ≤ 10 ^ (k + 1) := Nat.pow_le_pow_right (by decide) k.le_succ
  have hfitsNat : s.dust.toNat + s.amount.toNat % 10 * 10 ^ k ≤ dustThreshold.toNat := by
    rw [← hsum]
    exact UInt64.le_iff_toNat_le.1 hfits
  have hzero : s.isDustHandled = true → s.amount.toNat % 10 * 10 ^ k = 0 := fun hhandled => by
    have hno := (h.handled hhandled).1
    by_contra hnonzero
    have hdigit : 0 < s.amount.toNat % 10 := Nat.pos_of_ne_zero fun hzero => by
      rw [hzero, Nat.zero_mul] at hnonzero
      exact hnonzero rfl
    have hge : 10 ^ k ≤ s.amount.toNat % 10 * 10 ^ k := Nat.le_mul_of_pos_left _ hdigit
    omega
  have htotal := h.total
  refine ⟨DecomposeState.toNat_step_order h.order_eq, ?_, hdust' ▸ hfits, ?_, ?_, ?_⟩
  · rw [DecomposeState.step_amount, UInt64.toNat_div, hparts', hhandled', hdust', hsum]
    cases hhandled : s.isDustHandled
    · simp only [hhandled, Bool.false_eq_true, if_false, UInt64.reduceToNat] at htotal ⊢
      omega
    · have hchunk := hzero hhandled
      simp only [hhandled, if_true, UInt64.reduceToNat] at htotal ⊢
      omega
  · intro hhandled
    rw [hhandled'] at hhandled
    have hold := h.handled hhandled
    have hchunk := hzero hhandled
    rw [hdust', hsum, hparts']
    exact ⟨by omega, by omega⟩
  · rw [hparts', hhandled']
    exact h.dust_count
  · rw [hparts']
    exact h.wellFormed

theorem step_of_not_fits (h : DecomposeInv amount₀ dustThreshold k s) (hne : s.amount ≠ 0)
    (hfits : ¬s.dust + s.amount % 10 * s.order ≤ dustThreshold) :
    DecomposeInv amount₀ dustThreshold (k + 1) (s.step dustThreshold) := by
  obtain ⟨horder, hchunk, hsum, -⟩ := h.round_facts hne
  obtain ⟨hdust', hhandled', hparts'⟩ := DecomposeState.step_of_not_fits hfits
  have hsplit := digits_split s.amount.toNat k
  have hdigit := digit_lt_pow s.amount.toNat k
  have hover : dustThreshold.toNat < s.dust.toNat + s.amount.toNat % 10 * 10 ^ k := by
    rw [← hsum]
    exact Nat.lt_of_not_le (mt UInt64.le_iff_toNat_le.2 hfits)
  have htotal := h.total
  have hcount := h.dust_count
  refine ⟨DecomposeState.toNat_step_order h.order_eq, ?_, hdust' ▸ h.dust_le, ?_, ?_, ?_⟩
  · rw [DecomposeState.step_amount, UInt64.toNat_div, hparts', hhandled', hdust', partsTotal_append,
      partsTotal_handOut, hchunk]
    cases hhandled : s.isDustHandled <;> by_cases hzero : s.dust = 0 <;>
      simp [hhandled, hzero] at htotal ⊢ <;> omega
  · intro hhandled
    rw [hhandled'] at hhandled
    rw [hdust', hparts', partsTotal_append, partsTotal_handOut, hchunk]
    cases hold : s.isDustHandled
    · have hzero : s.dust ≠ 0 := by simpa [hold] using hhandled
      simp only [hzero, Bool.not_false, ne_eq, not_false_eq_true, decide_true,
        Bool.and_self, if_true]
      omega
    · have hparts := (h.handled hold).2
      simp only [Bool.not_true, Bool.false_and, Bool.false_eq_true, if_false]
      omega
  · rw [hparts', hhandled', countP_isDust_append, countP_isDust_handOut, hcount]
    cases s.isDustHandled <;> by_cases hzero : s.dust = 0 <;> simp [hzero]
  · intro part hpart
    rw [hparts', List.mem_append] at hpart
    rcases hpart with hold | hnew
    · exact h.wellFormed part hold
    · rw [List.mem_append] at hnew
      rcases hnew with hdustPart | hchunkPart
      · split_ifs at hdustPart with hhandle
        · rw [List.mem_singleton] at hdustPart
          subst hdustPart
          have hnonzero : s.dust ≠ 0 := by
            simp only [Bool.and_eq_true, Bool.not_eq_true', decide_eq_true_eq] at hhandle
            exact hhandle.2
          exact ⟨hnonzero, h.dust_le⟩
        · simp at hdustPart
      · split_ifs at hchunkPart with hnonzero
        · rw [List.mem_singleton] at hchunkPart
          subst hchunkPart
          have hdigit : s.amount.toNat % 10 ≠ 0 := by
            intro hzero
            apply hnonzero
            rw [← UInt64.toNat_inj, hchunk, hzero, Nat.zero_mul, UInt64.toNat_zero]
          exact ⟨s.amount.toNat % 10, k, by omega, by omega, hchunk⟩
        · simp at hchunkPart

theorem step (h : DecomposeInv amount₀ dustThreshold k s) (hne : s.amount ≠ 0) :
    DecomposeInv amount₀ dustThreshold (k + 1) (s.step dustThreshold) := by
  by_cases hfits : s.dust + s.amount % 10 * s.order ≤ dustThreshold
  · exact h.step_of_fits hne hfits
  · exact h.step_of_not_fits hne hfits

theorem run (h : DecomposeInv amount₀ dustThreshold k s) :
    ∃ k', DecomposeInv amount₀ dustThreshold k' (s.run dustThreshold) ∧
      (s.run dustThreshold).amount = 0 := by
  induction s using DecomposeState.run.induct dustThreshold generalizing k with
  | case1 s hzero =>
    rw [DecomposeState.run, if_pos hzero]
    exact ⟨k, h, hzero⟩
  | case2 s hne ih =>
    rw [DecomposeState.run, if_neg hne]
    exact ih (h.step hne)

end DecomposeInv

/-! ## What is handed out -/

/-- The values `decompose_amount_into_digits` hands out are well formed, add up to the amount,
and at most one of them is dust. -/
theorem decomposeAmountIntoDigits_spec (amount dustThreshold : UInt64) :
    (∀ part ∈ decomposeAmountIntoDigits amount dustThreshold, part.WellFormed dustThreshold) ∧
      partsTotal (decomposeAmountIntoDigits amount dustThreshold) = amount.toNat ∧
      (decomposeAmountIntoDigits amount dustThreshold).countP AmountPart.isDust ≤ 1 := by
  unfold decomposeAmountIntoDigits
  dsimp only
  split_ifs with hzero hout
  · subst hzero
    simp
  · -- the dust that has not gone out goes out after the loop
    obtain ⟨k, h, hend⟩ := (@DecomposeInv.init amount dustThreshold).run
    have htotal := h.total
    have hcount := h.dust_count
    simp only [Bool.and_eq_true, Bool.not_eq_true', decide_eq_true_eq] at hout
    simp only [hend, hout.1, UInt64.toNat_zero, Nat.zero_mul, Nat.zero_add, Bool.false_eq_true,
      if_false] at htotal hcount
    refine ⟨?_, ?_, ?_⟩
    · intro part hpart
      rw [List.mem_append, List.mem_singleton] at hpart
      rcases hpart with hpart | rfl
      · exact h.wellFormed part hpart
      · exact ⟨hout.2, h.dust_le⟩
    · rw [partsTotal_append, partsTotal_singleton]
      exact htotal
    · rw [countP_isDust_append, hcount]
      simp [AmountPart.isDust]
  · obtain ⟨k, h, hend⟩ := (@DecomposeInv.init amount dustThreshold).run
    have htotal := h.total
    have hcount := h.dust_count
    refine ⟨h.wellFormed, ?_, ?_⟩
    · rw [hend, UInt64.toNat_zero, Nat.zero_mul, Nat.zero_add] at htotal
      -- dust that never went out is zero
      cases hhandled : (DecomposeState.run dustThreshold ⟨amount, 0, 1, false, []⟩).isDustHandled
      · have hdust : (DecomposeState.run dustThreshold ⟨amount, 0, 1, false, []⟩).dust = 0 := by
          simpa [hhandled] using hout
        simpa [hhandled, hdust] using htotal
      · simpa [hhandled] using htotal
    · rw [hcount]
      split <;> simp

end CryptoNote
