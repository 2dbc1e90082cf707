import Traaitt.WalletBackend.Transfer
import Traaitt.CryptoNoteCore.RingIndexes
import Traaitt.Errors.Errors

/-! The rings of the inputs a wallet sends (`Transfer.cpp`). `getRingParticipants` asks the
daemon for `mixin + 1` outputs of each amount, and its last loop sorts each entry's outputs by
global index; but that loop runs over copies of the entries (`for (auto fakeOut : fakeOuts)`), so
what it returns is in the daemon's order. `prepareRingParticipants` takes the first `mixin` of an
entry's outputs that are not our own and inserts ours before the first one of index at least its
own; `setupInputs` stores the indexes as `uint32_t` differences. The node adds the differences up
again, so it sees exactly the ring the wallet built: in the daemon's order, which need not
increase. -/

namespace WalletTypes

structure GlobalIndexKey where
  index : UInt64
  key : Crypto.PublicKey
  deriving DecidableEq, Repr

/-- The fields of `WalletTypes::ObscuredInput` but the owner's private spend key, which only the
key image derivation reads. -/
structure ObscuredInput where
  outputs : List GlobalIndexKey
  realOutput : ℕ
  realTransactionPublicKey : Crypto.PublicKey
  realOutputTransactionIndex : UInt64
  amount : UInt64
  ownerPublicSpendKey : Crypto.PublicKey
  deriving DecidableEq, Repr

end WalletTypes

namespace CryptoNote

/-- `OutputEntry` of `COMMAND_RPC_GET_RANDOM_OUTPUTS_FOR_AMOUNTS`. -/
structure OutputEntry where
  globalAmountIndex : UInt32
  outKey : Crypto.PublicKey
  deriving DecidableEq, Repr

structure RandomOuts where
  amount : UInt64
  outs : List OutputEntry
  deriving DecidableEq, Repr

/-- `{fakeOut.global_amount_index, fakeOut.out_key}`: a daemon's output as a ring member. -/
def OutputEntry.toGlobalIndexKey (fakeOut : OutputEntry) : WalletTypes.GlobalIndexKey :=
  ⟨fakeOut.globalAmountIndex.toUInt64, fakeOut.outKey⟩

end CryptoNote

namespace SendTransaction

open CryptoNote Errors WalletTypes

/-- `getRingParticipants(mixin, daemon, sources)`. `getRandomOutsByAmounts amounts requestedOuts`
is the daemon's answer, `none` when the request fails. -/
def getRingParticipants (getRandomOutsByAmounts : List UInt64 → UInt64 → Option (List RandomOuts))
    (mixin : UInt64) (sources : List TxInputAndOwner) : Except Errors.ErrorCode (List RandomOuts) :=
  let requestedOuts := mixin + 1
  if mixin = 0 then .ok []
  else
    let amounts := sources.map (·.input.amount)
    match getRandomOutsByAmounts amounts requestedOuts with
    | none => .error .DAEMON_OFFLINE
    | some fakeOuts =>
      -- the first entry of each amount must be there and hold `mixin` outputs
      if amounts.any fun amount =>
          (fakeOuts.find? (·.amount == amount)).all (·.outs.length < mixin.toNat) then
        .error .NOT_ENOUGH_FAKE_OUTPUTS
      else if fakeOuts.length ≠ amounts.length then .error .NOT_ENOUGH_FAKE_OUTPUTS
      else if fakeOuts.any (·.outs.length < mixin.toNat) then .error .NOT_ENOUGH_FAKE_OUTPUTS
      -- the sort in the last loop is of a copy of each entry, so the entries come back as given
      else .ok fakeOuts

/-- The loop over the daemon's outputs for one input: every output that is not ours, in the
daemon's order, until there are `mixin`. -/
def takeFakeOutputs (globalOutputIndex : Option UInt64) (mixin : UInt64) :
    List OutputEntry → List GlobalIndexKey → List GlobalIndexKey
  | [], outputs => outputs
  | fakeOut :: fakeOuts, outputs =>
    if globalOutputIndex = some fakeOut.globalAmountIndex.toUInt64 then
      takeFakeOutputs globalOutputIndex mixin fakeOuts outputs
    else
      let outputs := outputs ++ [fakeOut.toGlobalIndexKey]
      if outputs.length ≥ mixin.toNat then outputs
      else takeFakeOutputs globalOutputIndex mixin fakeOuts outputs

/-- One input of `prepareRingParticipants`, with the daemon's outputs for it. The real output goes
before the first output whose index is at least its own (`output.index >= globalOutputIndex`,
which holds of every index when the optional is empty). -/
def obscureInput (mixin : UInt64) (walletAmount : TxInputAndOwner) (fakeOuts : List OutputEntry) :
    Except Errors.ErrorCode ObscuredInput :=
  let realOutput : GlobalIndexKey :=
    ⟨walletAmount.input.globalOutputIndex.getD 0, walletAmount.input.key⟩
  let outputs := if mixin ≠ 0 then
      takeFakeOutputs walletAmount.input.globalOutputIndex mixin fakeOuts []
    else []
  if outputs.length < mixin.toNat then .error .NOT_ENOUGH_FAKE_OUTPUTS
  else
    let insertPosition :=
      outputs.findIdx fun output => walletAmount.input.globalOutputIndex.all (· ≤ output.index)
    .ok { outputs := outputs.insertIdx insertPosition realOutput
          realOutput := insertPosition
          realTransactionPublicKey := walletAmount.input.transactionPublicKey
          realOutputTransactionIndex := walletAmount.input.transactionIndex
          amount := walletAmount.input.amount
          ownerPublicSpendKey := walletAmount.publicSpendKey }

/-- `prepareRingParticipants(sources, mixin, daemon)`. The inputs are sorted by amount to line up
with the daemon's entries; `std::sort` leaves the order of equal amounts open, and the model keeps
their order. -/
def prepareRingParticipants
    (getRandomOutsByAmounts : List UInt64 → UInt64 → Option (List RandomOuts))
    (sources : List TxInputAndOwner) (mixin : UInt64) :
    Except Errors.ErrorCode (List ObscuredInput) := do
  let sources := sources.insertionSort fun lhs rhs => lhs.input.amount ≤ rhs.input.amount
  let fakeOuts ← getRingParticipants getRandomOutsByAmounts mixin sources
  sources.zipIdx.mapM fun (walletAmount, i) =>
    obscureInput mixin walletAmount ((fakeOuts[i]?.map (·.outs)).getD [])

/-- The offsets `setupInputs` stores: the first index, then each index less the one before it,
in `uint32_t`. -/
def toRelativeOutputIndexes : List UInt32 → List UInt32
  | [] => []
  | first :: rest => first :: List.zipWith (· - ·) rest (first :: rest)

/-- One input of `setupInputs`: the key input, and the one-time secret key to sign it with.
`genKeyImage` is the derivation of the real output's one-time key pair and key image. -/
def setupInput
    (genKeyImage : ObscuredInput → (Crypto.PublicKey × Crypto.SecretKey) × Crypto.KeyImage)
    (input : ObscuredInput) : Except Errors.ErrorCode (KeyInput × Crypto.SecretKey) :=
  let ((publicKey, secretKey), keyImage) := genKeyImage input
  if (input.outputs[input.realOutput]?).map (·.key) ≠ some publicKey then
    .error .INVALID_GENERATED_KEYIMAGE
  else
    .ok (⟨input.amount, toRelativeOutputIndexes (input.outputs.map (·.index.toUInt32)), keyImage⟩,
      secretKey)

/-- `setupInputs(inputsAndFakes, privateViewKey)`: the key inputs and the one-time secret keys. -/
def setupInputs
    (genKeyImage : ObscuredInput → (Crypto.PublicKey × Crypto.SecretKey) × Crypto.KeyImage)
    (inputsAndFakes : List ObscuredInput) :
    Except Errors.ErrorCode (List KeyInput × List Crypto.SecretKey) :=
  List.unzip <$> inputsAndFakes.mapM (setupInput genKeyImage)

/-! ## The node's view of a ring -/

theorem scanl_zipWith_sub (rest : List UInt32) :
    ∀ prev : UInt32,
      (List.zipWith (· - ·) rest (prev :: rest)).scanl (· + ·) prev = prev :: rest := by
  induction rest with
  | nil => exact fun _ => rfl
  | cons next rest ih =>
    intro prev
    have hnext : prev + (next - prev) = next := by rw [UInt32.add_comm, UInt32.sub_add_cancel]
    rw [List.zipWith_cons_cons, List.scanl_cons]
    simp only [hnext, ih]

/-- The node's running sums of the offsets `setupInputs` stores are the indexes they were made
from, whatever their order. -/
theorem absoluteOutputIndexes_toRelativeOutputIndexes (indexes : List UInt32) :
    absoluteOutputIndexes (toRelativeOutputIndexes indexes) = indexes.map (·.toNat) := by
  cases indexes with
  | nil => rfl
  | cons first rest =>
    rw [toRelativeOutputIndexes, absoluteOutputIndexes_cons, scanl_zipWith_sub]

/-! ## The rings the wallet builds -/

variable {globalOutputIndex : Option UInt64} {mixin : UInt64}

/-- The loop over the daemon's outputs appends some of them, in the daemon's order, and stops at
`mixin` outputs when it had fewer. -/
theorem takeFakeOutputs_eq (fakeOuts : List OutputEntry) :
    ∀ outputs : List GlobalIndexKey, ∃ taken,
      takeFakeOutputs globalOutputIndex mixin fakeOuts outputs = outputs ++ taken ∧
        taken.Sublist (fakeOuts.map OutputEntry.toGlobalIndexKey) ∧
        (outputs.length < mixin.toNat → (outputs ++ taken).length ≤ mixin.toNat) := by
  induction fakeOuts with
  | nil => exact fun outputs => ⟨[], by simp [takeFakeOutputs], List.nil_sublist _,
      fun hfew => by simpa using hfew.le⟩
  | cons fakeOut fakeOuts ih =>
    intro outputs
    unfold takeFakeOutputs
    dsimp only
    split_ifs with hours henough
    · -- our own output is skipped
      obtain ⟨taken, heq, hsub, hbound⟩ := ih outputs
      exact ⟨taken, heq, hsub.cons _, hbound⟩
    · -- the output reaches `mixin`, and the loop stops
      refine ⟨[fakeOut.toGlobalIndexKey], rfl, by simp, fun hfew => ?_⟩
      rw [List.length_append, List.length_singleton] at henough ⊢
      omega
    · obtain ⟨taken, heq, hsub, hbound⟩ := ih (outputs ++ [fakeOut.toGlobalIndexKey])
      refine ⟨fakeOut.toGlobalIndexKey :: taken, by simpa using heq, hsub.cons_cons _, fun _ => ?_⟩
      have hfew : (outputs ++ [fakeOut.toGlobalIndexKey]).length < mixin.toNat := by omega
      simpa using hbound hfew

/-- What `getRingParticipants` returns: nothing without mixin, and otherwise the daemon's answer as
it came, one entry for each input. -/
theorem getRingParticipants_eq_ok
    {getRandomOutsByAmounts : List UInt64 → UInt64 → Option (List RandomOuts)}
    {sources : List TxInputAndOwner} {fakeOuts : List RandomOuts}
    (h : getRingParticipants getRandomOutsByAmounts mixin sources = .ok fakeOuts) :
    (mixin = 0 → fakeOuts = []) ∧
      (mixin ≠ 0 → getRandomOutsByAmounts (sources.map (·.input.amount)) (mixin + 1) =
        some fakeOuts ∧ fakeOuts.length = sources.length) := by
  unfold getRingParticipants at h
  dsimp only at h
  split_ifs at h with hmixin
  · cases h
    exact ⟨fun _ => rfl, fun hne => absurd hmixin hne⟩
  · split at h
    · cases h
    · rename_i answer hanswer
      split_ifs at h with hmissing hlength hshort
      cases h
      refine ⟨fun hzero => absurd hzero hmixin, fun _ => ⟨hanswer, ?_⟩⟩
      simpa using hlength

/-- The input `obscureInput` builds: `mixin + 1` outputs, ours at `realOutput`, and the others
some of the daemon's, in the daemon's order. -/
theorem obscureInput_eq_ok {walletAmount : TxInputAndOwner} {fakeOuts : List OutputEntry}
    {input : ObscuredInput} (h : obscureInput mixin walletAmount fakeOuts = .ok input) :
    input.outputs.length = mixin.toNat + 1 ∧
      input.outputs[input.realOutput]? =
        some ⟨walletAmount.input.globalOutputIndex.getD 0, walletAmount.input.key⟩ ∧
      (input.outputs.eraseIdx input.realOutput).Sublist
        (fakeOuts.map OutputEntry.toGlobalIndexKey) ∧
      input.amount = walletAmount.input.amount := by
  unfold obscureInput at h
  dsimp only at h
  set outputs := if mixin ≠ 0 then
      takeFakeOutputs walletAmount.input.globalOutputIndex mixin fakeOuts []
    else [] with houtputs
  split_ifs at h with hfew
  cases h
  -- the fake outputs: exactly `mixin` of the daemon's, in its order
  have hfakes : outputs.length = mixin.toNat ∧
      outputs.Sublist (fakeOuts.map OutputEntry.toGlobalIndexKey) := by
    by_cases hmixin : mixin = 0
    · rw [houtputs, if_neg (not_not.2 hmixin), hmixin]
      exact ⟨rfl, List.nil_sublist _⟩
    · obtain ⟨taken, heq, hsub, hbound⟩ :=
        @takeFakeOutputs_eq walletAmount.input.globalOutputIndex mixin fakeOuts []
      have hpos : 0 < mixin.toNat := by
        rw [Nat.pos_iff_ne_zero, Ne, ← UInt64.toNat_zero, UInt64.toNat_inj]
        exact hmixin
      rw [houtputs, if_pos hmixin, heq, List.nil_append] at hfew ⊢
      have := hbound hpos
      rw [List.nil_append] at this
      exact ⟨by omega, hsub⟩
  have hposition : outputs.findIdx (fun output =>
      walletAmount.input.globalOutputIndex.all (· ≤ output.index)) ≤ outputs.length :=
    List.findIdx_le_length
  refine ⟨?_, ?_, ?_, rfl⟩
  · rw [List.length_insertIdx, if_pos hposition, hfakes.1]
  · rw [List.getElem?_insertIdx_self, if_pos hposition]
  · rw [List.eraseIdx_insertIdx_self]
    exact hfakes.2

/-- The key input `setupInput` makes carries the ring's indexes as `uint32_t` differences. -/
theorem setupInput_eq_ok
    {genKeyImage : ObscuredInput → (Crypto.PublicKey × Crypto.SecretKey) × Crypto.KeyImage}
    {input : ObscuredInput} {keyInput : KeyInput} {secretKey : Crypto.SecretKey}
    (h : setupInput genKeyImage input = .ok (keyInput, secretKey)) :
    keyInput.outputIndexes = toRelativeOutputIndexes (input.outputs.map (·.index.toUInt32)) := by
  unfold setupInput at h
  rcases hgen : genKeyImage input with ⟨⟨publicKey, secretKey'⟩, keyImage⟩
  rw [hgen] at h
  dsimp only at h
  split_ifs at h
  cases h
  rfl

theorem setupInputs_eq_ok
    {genKeyImage : ObscuredInput → (Crypto.PublicKey × Crypto.SecretKey) × Crypto.KeyImage}
    {inputsAndFakes : List ObscuredInput} {transactionInputs : List KeyInput}
    {tmpSecretKeys : List Crypto.SecretKey}
    (h : setupInputs genKeyImage inputsAndFakes = .ok (transactionInputs, tmpSecretKeys)) :
    List.Forall₂ (fun input keyInput => ∃ secretKey,
      setupInput genKeyImage input = .ok (keyInput, secretKey)) inputsAndFakes transactionInputs := by
  obtain ⟨pairs, hpairs, hunzip⟩ := ExceptRun.map_eq_ok.1 h
  have htransactionInputs : transactionInputs = pairs.map Prod.fst := by
    rw [← List.unzip_fst, hunzip]
  rw [htransactionInputs, List.forall₂_map_right_iff]
  exact (ExceptRun.forall₂_of_mapM_eq_ok hpairs).imp fun _ pair hpair => ⟨pair.2, hpair⟩

/-- What `prepareRingParticipants` returns: for the inputs sorted by amount, what `obscureInput`
makes of each with its entry of the answer `getRingParticipants` returned. -/
theorem prepareRingParticipants_eq_ok
    {getRandomOutsByAmounts : List UInt64 → UInt64 → Option (List RandomOuts)}
    {sources : List TxInputAndOwner} {inputsAndFakes : List ObscuredInput}
    (h : prepareRingParticipants getRandomOutsByAmounts sources mixin = .ok inputsAndFakes) :
    let sorted := sources.insertionSort fun lhs rhs => lhs.input.amount ≤ rhs.input.amount
    ∃ fakeOuts, getRingParticipants getRandomOutsByAmounts mixin sorted = .ok fakeOuts ∧
      inputsAndFakes.length = sorted.length ∧
      ∀ i (hi : i < inputsAndFakes.length) (hsorted : i < sorted.length),
        obscureInput mixin sorted[i] ((fakeOuts[i]?.map (·.outs)).getD []) = .ok inputsAndFakes[i] := by
  intro sorted
  unfold prepareRingParticipants at h
  obtain ⟨fakeOuts, hfakeOuts, hinputs⟩ := ExceptRun.bind_eq_ok.1 h
  obtain ⟨hlength, heach⟩ := List.forall₂_iff_get.1 (ExceptRun.forall₂_of_mapM_eq_ok hinputs)
  rw [List.length_zipIdx] at hlength
  refine ⟨fakeOuts, hfakeOuts, hlength.symm, fun i hi hsorted => ?_⟩
  have hget := heach i (by rw [List.length_zipIdx]; exact hsorted) hi
  simpa [List.getElem_zipIdx] using hget

/-- The rings of the key inputs the wallet puts in a transaction, as the node reads them: the
running `uint32_t` sums of each input's offsets are the indexes of the ring the wallet built. The
ring holds `mixin + 1` outputs; without ours, the others are some of the daemon's outputs for that
input, in the order the daemon sent them, since the sort of `getRingParticipants` is of copies. A
daemon that does not send them in increasing order gives a ring whose running sums go back. -/
theorem makeTransaction_ring_in_daemon_order
    (getRandomOutsByAmounts : List UInt64 → UInt64 → Option (List RandomOuts))
    (genKeyImage : ObscuredInput → (Crypto.PublicKey × Crypto.SecretKey) × Crypto.KeyImage)
    {ourInputs : List TxInputAndOwner} {inputsAndFakes : List ObscuredInput}
    {transactionInputs : List KeyInput} {tmpSecretKeys : List Crypto.SecretKey}
    (hprepare : prepareRingParticipants getRandomOutsByAmounts ourInputs mixin = .ok inputsAndFakes)
    (hsetup : setupInputs genKeyImage inputsAndFakes = .ok (transactionInputs, tmpSecretKeys)) :
    List.Forall₂ (fun input keyInput =>
        absoluteOutputIndexes keyInput.outputIndexes = input.outputs.map (·.index.toUInt32.toNat))
      inputsAndFakes transactionInputs ∧
    ∃ answer : List RandomOuts,
      (mixin ≠ 0 → getRandomOutsByAmounts
        ((ourInputs.insertionSort fun lhs rhs => lhs.input.amount ≤ rhs.input.amount).map
          (·.input.amount)) (mixin + 1) = some answer) ∧
      ∀ i (hi : i < inputsAndFakes.length),
        inputsAndFakes[i].outputs.length = mixin.toNat + 1 ∧
        (inputsAndFakes[i].outputs.eraseIdx inputsAndFakes[i].realOutput).Sublist
          (((answer[i]?.map (·.outs)).getD []).map OutputEntry.toGlobalIndexKey) := by
  refine ⟨(setupInputs_eq_ok hsetup).imp fun input keyInput hkey => ?_, ?_⟩
  · obtain ⟨secretKey, hkey⟩ := hkey
    rw [setupInput_eq_ok hkey, absoluteOutputIndexes_toRelativeOutputIndexes, List.map_map]
    rfl
  · obtain ⟨fakeOuts, hfakeOuts, hlength, heach⟩ := prepareRingParticipants_eq_ok hprepare
    obtain ⟨-, hanswer⟩ := getRingParticipants_eq_ok hfakeOuts
    refine ⟨fakeOuts, fun hmixin => (hanswer hmixin).1, fun i hi => ?_⟩
    obtain ⟨hring, -, hsub, -⟩ := obscureInput_eq_ok (heach i hi (hlength ▸ hi))
    exact ⟨hring, hsub⟩

/-- An input of `10` that is output `10` of its amount, with one-time key `⟨0⟩`. -/
def ringInput : TxInputAndOwner :=
  let input : WalletTypes.TransactionInput :=
    { keyImage := ⟨1⟩, amount := 10, blockHeight := 1, transactionPublicKey := ⟨0⟩,
      transactionIndex := 0, globalOutputIndex := some 10, key := ⟨0⟩, spendHeight := 0,
      unlockTime := 0, parentTransactionHash := ⟨0⟩ }
  ⟨input, ⟨0⟩⟩

/-- A daemon that answers outputs `5` and then `3` for every amount. -/
def unsortedDaemon (_amounts : List UInt64) (_requestedOuts : UInt64) : Option (List RandomOuts) :=
  some [⟨10, [⟨5, ⟨0⟩⟩, ⟨3, ⟨0⟩⟩]⟩]

/-- The ring the wallet builds of `ringInput` with mixin `2` from `unsortedDaemon`. -/
def unsortedRing : ObscuredInput :=
  ⟨[⟨5, ⟨0⟩⟩, ⟨3, ⟨0⟩⟩, ⟨10, ⟨0⟩⟩], 2, ⟨0⟩, 0, 10, ⟨0⟩⟩

theorem makeTransaction_ring_in_daemon_order_unsorted :
    prepareRingParticipants unsortedDaemon [ringInput] 2 = .ok [unsortedRing] ∧
      setupInputs (fun _ => ((⟨0⟩, ⟨0⟩), ⟨1⟩)) [unsortedRing] =
        .ok ([⟨10, [5, 4294967294, 7], ⟨1⟩⟩], [⟨0⟩]) ∧
      (List.Forall₂ (fun (input : ObscuredInput) (keyInput : KeyInput) =>
          absoluteOutputIndexes keyInput.outputIndexes =
            input.outputs.map (·.index.toUInt32.toNat))
        [unsortedRing] [⟨10, [5, 4294967294, 7], ⟨1⟩⟩] ∧
      ∃ answer : List RandomOuts,
        ((2 : UInt64) ≠ 0 → unsortedDaemon
          (([ringInput].insertionSort fun lhs rhs => lhs.input.amount ≤ rhs.input.amount).map
            (·.input.amount)) (2 + 1) = some answer) ∧
        ∀ i (hi : i < [unsortedRing].length),
          [unsortedRing][i].outputs.length = (2 : UInt64).toNat + 1 ∧
          ([unsortedRing][i].outputs.eraseIdx [unsortedRing][i].realOutput).Sublist
            (((answer[i]?.map (·.outs)).getD []).map OutputEntry.toGlobalIndexKey)) ∧
      absoluteOutputIndexes [5, 4294967294, 7] = [5, 3, 10] :=
  have hprepare : prepareRingParticipants unsortedDaemon [ringInput] 2 = .ok [unsortedRing] := rfl
  have hsetup : setupInputs (fun _ => ((⟨0⟩, ⟨0⟩), ⟨1⟩)) [unsortedRing] =
      .ok ([⟨10, [5, 4294967294, 7], ⟨1⟩⟩], [⟨0⟩]) := rfl
  ⟨hprepare, hsetup, makeTransaction_ring_in_daemon_order _ _ hprepare hsetup, rfl⟩

end SendTransaction
