import Traaitt.CryptoNoteCore.Core

/-! The ring of a key input as `validateTransaction` looks it up: the first offset is a global
index, each further one is added to the index before it in `uint32_t`. `validateSemantic`
refuses a zero offset after the first, so while the running sums stay below `2 ^ 32` the
indexes strictly increase, as `extractKeyOutputs` asserts. Nothing bounds the sums, though:
offsets that wrap around give a ring that goes back, and one that names an output twice. -/

namespace CryptoNote

/-- The loop of `absoluteOutputIndexes` from a non-empty prefix: the running sums go on from
its last index. `step` is the loop's body, which appends the last index plus the offset. -/
theorem foldl_absolute {step : List UInt32 → UInt32 → List UInt32}
    (hstep : ∀ acc last offset, acc.getLast? = some last → step acc offset = acc ++ [last + offset])
    (offsets : List UInt32) :
    ∀ (acc : List UInt32) (last : UInt32), acc.getLast? = some last →
      offsets.foldl step acc = acc.dropLast ++ offsets.scanl (· + ·) last := by
  induction offsets with
  | nil =>
    intro acc last hlast
    rw [List.foldl_nil, List.scanl_nil]
    exact (List.dropLast_append_getLast? last hlast).symm
  | cons offset offsets ih =>
    intro acc last hlast
    rw [List.foldl_cons, hstep acc last offset hlast,
      ih (acc ++ [last + offset]) (last + offset) (by simp), List.dropLast_concat,
      List.scanl_cons]
    conv_lhs => rw [← List.dropLast_append_getLast? last hlast]
    simp

/-- The absolute indexes: the running `uint32_t` sums of the offsets. -/
theorem absoluteOutputIndexes_cons (offset : UInt32) (offsets : List UInt32) :
    absoluteOutputIndexes (offset :: offsets) = (offsets.scanl (· + ·) offset).map (·.toNat) := by
  simp only [absoluteOutputIndexes, List.foldl_cons, List.getLast?_nil]
  rw [foldl_absolute (fun acc last offset hlast => by simp only [hlast]) offsets [offset] offset rfl,
    List.dropLast_singleton, List.nil_append]

/-- Running sums from `offset` of non-zero offsets that do not wrap strictly increase, from
`offset` on. -/
theorem scanl_pairwise_lt (offsets : List UInt32) :
    ∀ offset : UInt32, (0 : UInt32) ∉ offsets →
      offset.toNat + (offsets.map (·.toNat)).sum < 2 ^ 32 →
      ((offsets.scanl (· + ·) offset).map (·.toNat)).Pairwise (· < ·) ∧
        ∀ y ∈ (offsets.scanl (· + ·) offset).map (·.toNat), offset.toNat ≤ y := by
  induction offsets with
  | nil => intro offset _ _; simp
  | cons next offsets ih =>
    intro offset hzero hfit
    rw [List.mem_cons, not_or] at hzero
    rw [List.map_cons, List.sum_cons] at hfit
    -- the next running sum does not wrap, and is larger
    have hnext : (offset + next).toNat = offset.toNat + next.toNat := by
      rw [UInt32.toNat_add, Nat.mod_eq_of_lt (by omega)]
    have hpos : 0 < next.toNat := by
      rw [Nat.pos_iff_ne_zero, Ne, ← UInt32.toNat_zero, UInt32.toNat_inj]
      exact fun h => hzero.1 h.symm
    obtain ⟨hpairwise, hbelow⟩ := ih (offset + next) hzero.2 (by rw [hnext]; omega)
    rw [List.scanl_cons, List.map_cons, List.pairwise_cons]
    refine ⟨⟨fun y hy => ?_, hpairwise⟩, fun y hy => ?_⟩
    · have := hbelow y hy
      omega
    · rcases List.mem_cons.1 hy with rfl | hy
      · exact le_refl _
      · have := hbelow y hy
        omega

/-- Non-zero offsets after the first whose sum stays below `2 ^ 32` give strictly increasing
absolute indexes. -/
theorem absoluteOutputIndexes_pairwise {offsets : List UInt32}
    (hzero : (0 : UInt32) ∉ offsets.tail) (hfit : (offsets.map (·.toNat)).sum < 2 ^ 32) :
    (absoluteOutputIndexes offsets).Pairwise (· < ·) := by
  cases offsets with
  | nil => simp [absoluteOutputIndexes]
  | cons offset offsets =>
    rw [List.map_cons, List.sum_cons] at hfit
    rw [absoluteOutputIndexes_cons]
    exact (scanl_pairwise_lt offsets offset hzero hfit).1

/-- What `validateSemantic` checks of the ring of each key input of a transaction it accepts:
some offsets, and no zero after the first. -/
theorem outputIndexes_of_validateSemantic {primitives : Primitives} {transaction : Transaction}
    {blockIndex : ℕ} {fee : UInt64} (h : validateSemantic primitives transaction blockIndex = .ok fee)
    {input : KeyInput} (hinput : .key input ∈ transaction.inputs) :
    input.outputIndexes ≠ [] ∧ (0 : UInt32) ∉ input.outputIndexes.tail := by
  simp only [validateSemantic, bind, Except.bind] at h
  split_ifs at h
  split at h
  · cases h
  split at h
  · cases h
  rename_i hinputs
  obtain ⟨acc, acc', hstep⟩ := ExceptRun.foldlM_step_ok hinputs _ hinput
  simp only [validateSemanticInput] at hstep
  split_ifs at hstep with h1 h2 h3 h4 h5
  exact ⟨fun hnil => h2 (by simp [hnil]), h4⟩

theorem absoluteOutputIndexes_pairwise_of_validateSemantic {primitives : Primitives}
    {transaction : Transaction} {blockIndex : ℕ} {fee : UInt64}
    (h : validateSemantic primitives transaction blockIndex = .ok fee) {input : KeyInput}
    (hinput : .key input ∈ transaction.inputs)
    (hfit : (input.outputIndexes.map (·.toNat)).sum < 2 ^ 32) :
    (absoluteOutputIndexes input.outputIndexes).Pairwise (· < ·) :=
  absoluteOutputIndexes_pairwise (outputIndexes_of_validateSemantic h hinput).2 hfit

/-- A ring whose offsets wrap around: `validateSemantic` accepts the transaction at every
height, and the absolute indexes `validateTransaction` hands to `extractKeyOutputKeys` go back
and name output 5 twice. -/
theorem validateSemantic_accepts_wrapped_ring (primitives : Primitives)
    (keyImage : Crypto.KeyImage) (hdomain : primitives.keyImageInDomain keyImage = true)
    (blockIndex : ℕ) :
    validateSemantic primitives
        ⟨⟨1, 0, [.key ⟨0, [5, 4294967293, 3], keyImage⟩], [], []⟩, [[]]⟩ blockIndex = .ok 0 ∧
      absoluteOutputIndexes [5, 4294967293, 3] = [5, 2, 5] := by
  have hextra : parameters.MAX_EXTRA_SIZE_V2.toNat ≠ 0 := by decide
  constructor
  · simp [validateSemantic, validateSemanticInput, hdomain, hextra]
  · rfl

/-- The key image `2^248` encodes the identity point `I`, which `scalarmultKey(I, L) == I`
keeps in the domain. -/
theorem validateSemantic_accepts_wrapped_ring_trusting :
    (Primitives.trusting (fun _ => ⟨0⟩) (fun _ => none)).keyImageInDomain
        ⟨.ofNat 256 (2 ^ 248)⟩ = true ∧
      validateSemantic (Primitives.trusting (fun _ => ⟨0⟩) (fun _ => none))
          ⟨⟨1, 0, [.key ⟨0, [5, 4294967293, 3], ⟨.ofNat 256 (2 ^ 248)⟩⟩], [], []⟩, [[]]⟩
          0 = .ok 0 ∧
        absoluteOutputIndexes [5, 4294967293, 3] = [5, 2, 5] :=
  ⟨rfl, validateSemantic_accepts_wrapped_ring _ ⟨.ofNat 256 (2 ^ 248)⟩ rfl 0⟩

end CryptoNote
