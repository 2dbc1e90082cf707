import Traaitt.Common.StreamTools
import Traaitt.Common.StringTools
import Traaitt.CryptoNote.Pod
import Traaitt.Config.CryptoNoteConfig

/-! `TransactionExtra.cpp`: the fields of a transaction's extra. `writeTransactionExtra` appends
each field: a padding as its zero bytes (the tag byte `0x00` among them), a public key or a
nonce after its tag, and a merge-mining tag as the length-prefixed string of its depth and merkle
root. `parseTransactionExtra` reads tag after tag: a second padding, public key or nonce stops it
with success, a second merge-mining tag is skipped, unknown tags are skipped, and a read past the
end makes it fail. It reads back every list of fields the writer writes in full, and whatever it
is given, it returns at most one field of each kind. -/

namespace CryptoNote

open CryptoNote.parameters

def TX_EXTRA_PADDING_MAX_COUNT : ℕ := 255

def TX_EXTRA_NONCE_MAX_COUNT : ℕ := 255

def TX_EXTRA_TAG_PADDING : UInt8 := 0x00

def TX_EXTRA_TAG_PUBKEY : UInt8 := 0x01

def TX_EXTRA_NONCE : UInt8 := 0x02

def TX_EXTRA_MERGE_MINING_TAG : UInt8 := 0x03

structure TransactionExtraPadding where
  size : ℕ
  deriving DecidableEq, Repr

structure TransactionExtraPublicKey where
  publicKey : Crypto.PublicKey
  deriving DecidableEq, Repr

structure TransactionExtraNonce where
  nonce : List UInt8
  deriving DecidableEq, Repr

structure TransactionExtraMergeMiningTag where
  depth : UInt64
  merkleRoot : Crypto.Hash
  deriving DecidableEq, Repr

/-- `TransactionExtraField`, the variant of the four fields. -/
inductive TransactionExtraField
  | padding (field : TransactionExtraPadding)
  | publicKey (field : TransactionExtraPublicKey)
  | nonce (field : TransactionExtraNonce)
  | mergeMiningTag (field : TransactionExtraMergeMiningTag)
  deriving DecidableEq, Repr

/-! ## The writer -/

/-- `toBinaryArray` of a merge-mining tag: `serialize` writes the depth and the merkle root into
a string, and then the string after its length. -/
def mergeMiningTagToBinaryArray (mmTag : TransactionExtraMergeMiningTag) : List UInt8 :=
  let field := Common.writeVarint 9 mmTag.depth.toNat ++ mmTag.merkleRoot.bytes
  Common.writeVarint 9 field.length ++ field

def addTransactionPublicKeyToExtra (txExtra : List UInt8) (txPubKey : Crypto.PublicKey) :
    List UInt8 :=
  txExtra ++ TX_EXTRA_TAG_PUBKEY :: txPubKey.bytes

/-- `addExtraNonceToTransactionExtra`, `none` where it returns false. -/
def addExtraNonceToTransactionExtra (txExtra extraNonce : List UInt8) : Option (List UInt8) :=
  if TX_EXTRA_NONCE_MAX_COUNT < extraNonce.length then none
  else some (txExtra ++ TX_EXTRA_NONCE :: UInt8.ofNat extraNonce.length :: extraNonce)

/-- `appendMergeMiningTagToExtra`; writing to a byte vector does not throw, so it succeeds. -/
def appendMergeMiningTagToExtra (txExtra : List UInt8) (mmTag : TransactionExtraMergeMiningTag) :
    List UInt8 :=
  txExtra ++ TX_EXTRA_MERGE_MINING_TAG :: mergeMiningTagToBinaryArray mmTag

/-- `ExtraSerializerVisitor`: the extra with the field appended, `none` where the visitor
returns false and leaves it as it was. -/
def extraSerializerVisitor (extra : List UInt8) : TransactionExtraField → Option (List UInt8)
  | .padding t =>
    if TX_EXTRA_PADDING_MAX_COUNT < t.size then none else some (extra ++ List.replicate t.size 0)
  | .publicKey t => some (addTransactionPublicKeyToExtra extra t.publicKey)
  | .nonce t => addExtraNonceToTransactionExtra extra t.nonce
  | .mergeMiningTag t => some (appendMergeMiningTagToExtra extra t)

/-- `writeTransactionExtra`: its result and the extra as it leaves it. -/
def writeTransactionExtra (txExtra : List UInt8) :
    List TransactionExtraField → Bool × List UInt8
  | [] => (true, txExtra)
  | tag :: fields =>
    match extraSerializerVisitor txExtra tag with
    | some extra => writeTransactionExtra extra fields
    | none => (false, txExtra)

/-! ## The parser -/

/-- The four flags of `parseTransactionExtra`: which fields it has met. -/
structure ExtraSeen where
  padding : Bool
  pubkey : Bool
  nonce : Bool
  mergeMiningTag : Bool
  deriving DecidableEq, Repr

/-- `doSerialize` of a merge-mining tag on a binary input: its depth, then its merkle root; bytes
after them are left unread. -/
def readMergeMiningTagField (field : List UInt8) :
    Except String TransactionExtraMergeMiningTag := do
  let (depth, field) ← Common.readVarint 64 field
  let (merkleRoot, _) ← Common.read 32 field
  pure ⟨UInt64.ofNat depth, Crypto.Hash.ofBytes merkleRoot⟩

/-- `serialize(TransactionExtraMergeMiningTag &)` on a binary input: the string named `mm_tag`
(read and dropped when longer than `MAX_EXTRA_SIZE`), then the tag read from it. -/
def readMergeMiningTag (stream : List UInt8) :
    Except String (TransactionExtraMergeMiningTag × List UInt8) := do
  let (size, stream) ← Common.readVarint 64 stream
  let (bytes, stream) ← Common.read size stream
  let mmTag ← readMergeMiningTagField (if MAX_EXTRA_SIZE.toNat < size then [] else bytes)
  pure (mmTag, stream)

/-- The padding loop: `size` counts the tag and the zero bytes read; it reads while the stream has
bytes and `size <= TX_EXTRA_PADDING_MAX_COUNT`, and fails, `none`, on a byte that is not zero. -/
def readPadding : ℕ → List UInt8 → Option (ℕ × List UInt8)
  | size, [] => some (size, [])
  | size, b :: rest =>
    if size ≤ TX_EXTRA_PADDING_MAX_COUNT then
      if b ≠ 0 then none else readPadding (size + 1) rest
    else some (size, b :: rest)

/-- One round of the loop of `parseTransactionExtra` on the tag `c`: the function's result, or
`next` applied to the flags, fields and stream after the tag's field. -/
def parseTransactionExtraRound
    (next : ExtraSeen → List TransactionExtraField → List UInt8 → Bool × List TransactionExtraField)
    (seen : ExtraSeen) (fields : List TransactionExtraField) (c : UInt8) (rest : List UInt8) :
    Bool × List TransactionExtraField :=
  if c = TX_EXTRA_TAG_PADDING then
    if seen.padding then (true, fields)
    else
      match readPadding 1 rest with
      | none => (false, fields)
      | some (size, rest) =>
        if TX_EXTRA_PADDING_MAX_COUNT < size then (false, fields)
        else next { seen with padding := true } (fields ++ [.padding ⟨size⟩]) rest
  else if c = TX_EXTRA_TAG_PUBKEY then
    if seen.pubkey then (true, fields)
    else
      match Common.read 32 rest with
      | .error _ => (false, fields)
      | .ok (publicKey, rest) =>
        next { seen with pubkey := true }
          (fields ++ [.publicKey ⟨Crypto.PublicKey.ofBytes publicKey⟩]) rest
  else if c = TX_EXTRA_NONCE then
    if seen.nonce then (true, fields)
    else
      match Common.readUInt8 rest with
      | .error _ => (false, fields)
      | .ok (size, rest) =>
        match Common.read size.toNat rest with
        | .error _ => (false, fields)
        | .ok (nonce, rest) => next { seen with nonce := true } (fields ++ [.nonce ⟨nonce⟩]) rest
  else if c = TX_EXTRA_MERGE_MINING_TAG then
    if seen.mergeMiningTag then next seen fields rest
    else
      match readMergeMiningTag rest with
      | .error _ => (false, fields)
      | .ok (mmTag, rest) =>
        next { seen with mergeMiningTag := true } (fields ++ [.mergeMiningTag mmTag]) rest
  else next seen fields rest

/-- The loop of `parseTransactionExtra`, one tag a round, with the function's result and the
fields pushed. Every round reads at least the tag, so as many rounds as bytes are enough
(`parseTransactionExtraLoop_rounds`). -/
def parseTransactionExtraLoop :
    ℕ → ExtraSeen → List TransactionExtraField → List UInt8 → Bool × List TransactionExtraField
  | _, _, fields, [] => (true, fields)
  | 0, _, fields, _ :: _ => (true, fields)
  | rounds + 1, seen, fields, c :: rest =>
    parseTransactionExtraRound (parseTransactionExtraLoop rounds) seen fields c rest

/-- `parseTransactionExtra`: its result and the fields it leaves. -/
def parseTransactionExtra (transactionExtra : List UInt8) : Bool × List TransactionExtraField :=
  if transactionExtra = [] then (true, [])
  else
    parseTransactionExtraLoop transactionExtra.length ⟨false, false, false, false⟩ []
      transactionExtra

/-! ## Kinds of field -/

/-- The four kinds of field, one per flag of the parser. -/
inductive ExtraFieldKind
  | padding
  | publicKey
  | nonce
  | mergeMiningTag
  deriving DecidableEq, Repr

@[simp] def TransactionExtraField.kind : TransactionExtraField → ExtraFieldKind
  | .padding _ => .padding
  | .publicKey _ => .publicKey
  | .nonce _ => .nonce
  | .mergeMiningTag _ => .mergeMiningTag

/-- The flag of a kind. -/
@[simp] def ExtraSeen.get (seen : ExtraSeen) : ExtraFieldKind → Bool
  | .padding => seen.padding
  | .publicKey => seen.pubkey
  | .nonce => seen.nonce
  | .mergeMiningTag => seen.mergeMiningTag

/-- The flags are set for every field pushed, and no two fields pushed share a kind. -/
structure ExtraSeen.Covers (seen : ExtraSeen) (fields : List TransactionExtraField) : Prop where
  nodup : (fields.map TransactionExtraField.kind).Nodup
  seen_of_mem : ∀ f ∈ fields, seen.get f.kind = true

theorem ExtraSeen.covers_empty : ExtraSeen.Covers ⟨false, false, false, false⟩ [] :=
  ⟨List.nodup_nil, by simp⟩

theorem ExtraSeen.Covers.push {seen seen' : ExtraSeen} {fields : List TransactionExtraField}
    {field : TransactionExtraField} (h : seen.Covers fields) (hnew : seen.get field.kind = false)
    (hset : ∀ k, seen'.get k = (seen.get k || decide (k = field.kind))) :
    seen'.Covers (fields ++ [field]) := by
  constructor
  · rw [List.map_append, List.nodup_append]
    refine ⟨h.nodup, by simp, ?_⟩
    intro k hk k' hk' hkk'
    simp only [List.map_cons, List.map_nil, List.mem_singleton] at hk'
    obtain ⟨f, hf, rfl⟩ := List.mem_map.1 hk
    have hseen := h.seen_of_mem f hf
    rw [hkk', hk', hnew] at hseen
    exact Bool.false_ne_true hseen
  · intro f hf
    rw [hset]
    rcases List.mem_append.1 hf with hf | hf
    · rw [h.seen_of_mem f hf, Bool.true_or]
    · rw [List.mem_singleton.1 hf]
      simp

/-! ## Every round reads -/

theorem readPadding_length :
    ∀ {size : ℕ} {stream rest : List UInt8} {n : ℕ},
      readPadding size stream = some (n, rest) → rest.length ≤ stream.length
  | _, [], _, _, h => by
    cases h
    exact le_rfl
  | size, b :: stream, rest, n, h => by
    rw [readPadding] at h
    split_ifs at h with hsize hb
    · exact Nat.le_succ_of_le (readPadding_length h)
    · cases h
      exact le_rfl

theorem read_length {size : ℕ} {stream bytes rest : List UInt8}
    (h : Common.read size stream = .ok (bytes, rest)) : rest.length ≤ stream.length := by
  obtain ⟨rfl, -⟩ := Common.read_eq_ok h
  simp

theorem readMergeMiningTag_length {stream rest : List UInt8}
    {mmTag : TransactionExtraMergeMiningTag}
    (h : readMergeMiningTag stream = .ok (mmTag, rest)) : rest.length ≤ stream.length := by
  obtain ⟨⟨size, afterSize⟩, hsize, h⟩ := ExceptRun.bind_eq_ok.1 h
  obtain ⟨⟨bytes, afterBytes⟩, hbytes, h⟩ := ExceptRun.bind_eq_ok.1 h
  obtain ⟨_, -, h⟩ := ExceptRun.bind_eq_ok.1 h
  cases ExceptRun.pure_eq_ok.1 h
  obtain ⟨rfl, -⟩ := Common.readVarint_sound (by norm_num) hsize
  exact le_trans (read_length hbytes) (by simp)

/-- What a round can do: return with the fields it was given, push a field of a kind it has not
seen and set that flag, or skip bytes; the stream only gets shorter. -/
theorem parseTransactionExtraRound_cases
    (next : ExtraSeen → List TransactionExtraField → List UInt8 → Bool × List TransactionExtraField)
    (seen : ExtraSeen) (fields : List TransactionExtraField) (c : UInt8) (rest : List UInt8) :
    (∃ b, parseTransactionExtraRound next seen fields c rest = (b, fields)) ∨
      (∃ field rest' seen', rest'.length ≤ rest.length ∧ seen.get field.kind = false ∧
        (∀ k, seen'.get k = (seen.get k || decide (k = field.kind))) ∧
        parseTransactionExtraRound next seen fields c rest = next seen' (fields ++ [field]) rest') ∨
      (∃ rest', rest'.length ≤ rest.length ∧
        parseTransactionExtraRound next seen fields c rest = next seen fields rest') := by
  unfold parseTransactionExtraRound
  split_ifs with hpad hpadSeen hpub hpubSeen hnonce hnonceSeen hmm hmmSeen
  · exact Or.inl ⟨_, rfl⟩
  · -- a padding
    cases hpadding : readPadding 1 rest with
    | none => exact Or.inl ⟨_, rfl⟩
    | some p =>
      obtain ⟨size, rest'⟩ := p
      dsimp only
      split_ifs
      · exact Or.inl ⟨_, rfl⟩
      · exact Or.inr (Or.inl ⟨.padding ⟨size⟩, rest', _, readPadding_length hpadding,
          by simpa using hpadSeen, by intro k; cases k <;> simp, rfl⟩)
  · exact Or.inl ⟨_, rfl⟩
  · -- a public key
    cases hkey : Common.read 32 rest with
    | error => exact Or.inl ⟨_, rfl⟩
    | ok p =>
      obtain ⟨publicKey, rest'⟩ := p
      exact Or.inr (Or.inl ⟨.publicKey ⟨Crypto.PublicKey.ofBytes publicKey⟩, rest', _,
        read_length hkey, by simpa using hpubSeen, by intro k; cases k <;> simp, rfl⟩)
  · exact Or.inl ⟨_, rfl⟩
  · -- a nonce: its size byte, then its bytes
    cases hsize : Common.readUInt8 rest with
    | error => exact Or.inl ⟨_, rfl⟩
    | ok p =>
      obtain ⟨size, afterSize⟩ := p
      dsimp only
      cases hnonceBytes : Common.read size.toNat afterSize with
      | error => exact Or.inl ⟨_, rfl⟩
      | ok q =>
        obtain ⟨nonce, rest'⟩ := q
        dsimp only
        have hshorter : afterSize.length ≤ rest.length := by
          cases rest with
          | nil => cases hsize
          | cons b rest =>
            cases hsize
            exact Nat.le_succ _
        exact Or.inr (Or.inl ⟨.nonce ⟨nonce⟩, rest', _,
          le_trans (read_length hnonceBytes) hshorter, by simpa using hnonceSeen,
          by intro k; cases k <;> simp, rfl⟩)
  · exact Or.inr (Or.inr ⟨rest, le_rfl, rfl⟩)
  · -- a merge-mining tag
    cases htag : readMergeMiningTag rest with
    | error => exact Or.inl ⟨_, rfl⟩
    | ok p =>
      obtain ⟨mmTag, rest'⟩ := p
      exact Or.inr (Or.inl ⟨.mergeMiningTag mmTag, rest', _, readMergeMiningTag_length htag,
        by simpa using hmmSeen, by intro k; cases k <;> simp, rfl⟩)
  · exact Or.inr (Or.inr ⟨rest, le_rfl, rfl⟩)

theorem parseTransactionExtraLoop_covers :
    ∀ (rounds : ℕ) {seen : ExtraSeen} {fields : List TransactionExtraField}
      (stream : List UInt8), seen.Covers fields →
      ((parseTransactionExtraLoop rounds seen fields stream).2.map
        TransactionExtraField.kind).Nodup := by
  intro rounds
  induction rounds with
  | zero =>
    intro seen fields stream h
    cases stream <;> exact h.nodup
  | succ rounds ih =>
    intro seen fields stream h
    cases stream with
    | nil => exact h.nodup
    | cons c rest =>
      rw [parseTransactionExtraLoop]
      rcases parseTransactionExtraRound_cases (parseTransactionExtraLoop rounds) seen fields c rest
        with ⟨b, hround⟩ | ⟨field, rest', seen', -, hnew, hset, hround⟩ | ⟨rest', -, hround⟩
      · rw [hround]
        exact h.nodup
      · rw [hround]
        exact ih rest' (h.push hnew hset)
      · rw [hround]
        exact ih rest' h

/-- A round calls `next` only on streams no longer than the one after its tag. -/
theorem parseTransactionExtraRound_congr
    {next₁ next₂ : ExtraSeen → List TransactionExtraField → List UInt8 →
      Bool × List TransactionExtraField}
    (seen : ExtraSeen) (fields : List TransactionExtraField) (c : UInt8) (rest : List UInt8)
    (h : ∀ seen' fields' rest', rest'.length ≤ rest.length →
      next₁ seen' fields' rest' = next₂ seen' fields' rest') :
    parseTransactionExtraRound next₁ seen fields c rest =
      parseTransactionExtraRound next₂ seen fields c rest := by
  unfold parseTransactionExtraRound
  split_ifs
  · rfl
  · cases hpadding : readPadding 1 rest with
    | none => rfl
    | some p =>
      dsimp only
      split_ifs
      · rfl
      · exact h _ _ _ (readPadding_length hpadding)
  · rfl
  · cases hkey : Common.read 32 rest with
    | error => rfl
    | ok p => exact h _ _ _ (read_length hkey)
  · rfl
  · cases hsize : Common.readUInt8 rest with
    | error => rfl
    | ok p =>
      obtain ⟨size, afterSize⟩ := p
      dsimp only
      cases hnonceBytes : Common.read size.toNat afterSize with
      | error => rfl
      | ok q =>
        have hshorter : afterSize.length ≤ rest.length := by
          cases rest with
          | nil => cases hsize
          | cons b rest =>
            cases hsize
            exact Nat.le_succ _
        exact h _ _ _ (le_trans (read_length hnonceBytes) hshorter)
  · exact h _ _ _ le_rfl
  · cases htag : readMergeMiningTag rest with
    | error => rfl
    | ok p => exact h _ _ _ (readMergeMiningTag_length htag)
  · exact h _ _ _ le_rfl

/-- Rounds beyond the length of the stream change nothing: every round reads its tag, so the
loop of the source ends within as many rounds as the extra has bytes. -/
theorem parseTransactionExtraLoop_rounds :
    ∀ (rounds extra : ℕ) (seen : ExtraSeen) (fields : List TransactionExtraField)
      (stream : List UInt8), stream.length ≤ rounds →
      parseTransactionExtraLoop (rounds + extra) seen fields stream =
        parseTransactionExtraLoop rounds seen fields stream := by
  intro rounds
  induction rounds with
  | zero =>
    intro extra seen fields stream h
    rw [List.length_eq_zero_iff.1 (Nat.le_zero.1 h)]
    simp [parseTransactionExtraLoop]
  | succ rounds ih =>
    intro extra seen fields stream h
    cases stream with
    | nil => simp [parseTransactionExtraLoop]
    | cons c rest =>
      rw [Nat.add_right_comm, parseTransactionExtraLoop, parseTransactionExtraLoop]
      exact parseTransactionExtraRound_congr seen fields c rest fun seen' fields' rest' hrest =>
        ih extra seen' fields' rest' (by simp at h; omega)

/-! ## Writing and reading back -/

/-- The bytes `ExtraSerializerVisitor` appends for a field it accepts. -/
def extraFieldBytes : TransactionExtraField → List UInt8
  | .padding t => List.replicate t.size 0
  | .publicKey t => TX_EXTRA_TAG_PUBKEY :: t.publicKey.bytes
  | .nonce t => TX_EXTRA_NONCE :: UInt8.ofNat t.nonce.length :: t.nonce
  | .mergeMiningTag t => TX_EXTRA_MERGE_MINING_TAG :: mergeMiningTagToBinaryArray t

/-- The fields `ExtraSerializerVisitor` accepts: a padding or a nonce of at most 255 bytes, and
every public key and merge-mining tag. -/
def ExtraFieldWritable : TransactionExtraField → Prop
  | .padding t => t.size ≤ TX_EXTRA_PADDING_MAX_COUNT
  | .nonce t => t.nonce.length ≤ TX_EXTRA_NONCE_MAX_COUNT
  | .publicKey _ => True
  | .mergeMiningTag _ => True

theorem extraSerializerVisitor_eq_some (extra : List UInt8) {field : TransactionExtraField}
    (h : ExtraFieldWritable field) :
    extraSerializerVisitor extra field = some (extra ++ extraFieldBytes field) := by
  cases field with
  | padding t => simp [extraSerializerVisitor, extraFieldBytes, not_lt.2 h]
  | publicKey t => rfl
  | nonce t =>
    simp [extraSerializerVisitor, addExtraNonceToTransactionExtra, extraFieldBytes, not_lt.2 h]
  | mergeMiningTag t => rfl

theorem writeTransactionExtra_eq (fields : List TransactionExtraField) :
    ∀ txExtra, (∀ f ∈ fields, ExtraFieldWritable f) →
      writeTransactionExtra txExtra fields = (true, txExtra ++ fields.flatMap extraFieldBytes) := by
  induction fields with
  | nil => simp [writeTransactionExtra]
  | cons f fields ih =>
    intro txExtra h
    rw [writeTransactionExtra, extraSerializerVisitor_eq_some _ (h f List.mem_cons_self)]
    dsimp only
    rw [ih _ fun g hg => h g (List.mem_cons_of_mem f hg), List.flatMap_cons, List.append_assoc]

theorem readPadding_replicate (rest : ℕ) :
    ∀ size, size + rest ≤ TX_EXTRA_PADDING_MAX_COUNT + 1 →
      readPadding size (List.replicate rest 0) = some (size + rest, []) := by
  induction rest with
  | zero => intro size _; rfl
  | succ rest ih =>
    intro size h
    rw [List.replicate_succ, readPadding, if_pos (by omega), if_neg (by simp),
      ih (size + 1) (by omega), Nat.add_right_comm, Nat.add_assoc]

theorem readMergeMiningTag_mergeMiningTagToBinaryArray (mmTag : TransactionExtraMergeMiningTag)
    (rest : List UInt8) :
    readMergeMiningTag (mergeMiningTagToBinaryArray mmTag ++ rest) = .ok (mmTag, rest) := by
  have hdepth : mmTag.depth.toNat < 2 ^ 64 := mmTag.depth.toNat_lt
  have hdepthBytes : (Leb128.encode mmTag.depth.toNat).length ≤ 9 + 1 :=
    Leb128.length_encode_le (lt_of_lt_of_le hdepth (by norm_num))
  have hwriteDepth : Common.writeVarint 9 mmTag.depth.toNat = Leb128.encode mmTag.depth.toNat :=
    Common.writeVarint_eq_encode (lt_of_lt_of_le hdepth (by norm_num))
  set field := Common.writeVarint 9 mmTag.depth.toNat ++ mmTag.merkleRoot.bytes with hfield
  have hlength : field.length ≤ 42 := by
    rw [hfield, List.length_append, hwriteDepth, Crypto.Hash.length_bytes]
    omega
  have hwriteLength : Common.writeVarint 9 field.length = Leb128.encode field.length :=
    Common.writeVarint_eq_encode (by omega)
  have hreadRoot : Common.read 32 mmTag.merkleRoot.bytes = .ok (mmTag.merkleRoot.bytes, []) := by
    simpa using Common.read_append (Crypto.Hash.length_bytes mmTag.merkleRoot) []
  have hreadField : readMergeMiningTagField field = .ok mmTag := by
    rw [readMergeMiningTagField, hfield, hwriteDepth, Common.readVarint_complete hdepth]
    simp [hreadRoot, Crypto.Hash.ofBytes_bytes]
  rw [mergeMiningTagToBinaryArray, ← hfield, hwriteLength, List.append_assoc, readMergeMiningTag,
    Common.readVarint_complete (by omega)]
  simp [Common.read_append, MAX_EXTRA_SIZE, show ¬140000 < field.length by omega, hreadField]

/-- A round reads back the bytes of a field of a kind it has not seen; a padding reads every zero
byte left, so it comes back whole only as the last field. -/
theorem parseTransactionExtraRound_extraFieldBytes
    (next : ExtraSeen → List TransactionExtraField → List UInt8 → Bool × List TransactionExtraField)
    {seen : ExtraSeen} (fields : List TransactionExtraField) {field : TransactionExtraField}
    (rest : List UInt8) (hnew : seen.get field.kind = false) (hwritable : ExtraFieldWritable field)
    (hpadding : ∀ t, field = .padding t → 1 ≤ t.size ∧ rest = []) :
    ∃ c tail seen', extraFieldBytes field ++ rest = c :: tail ∧
      (∀ k, seen'.get k = (seen.get k || decide (k = field.kind))) ∧
      parseTransactionExtraRound next seen fields c tail = next seen' (fields ++ [field]) rest := by
  cases field with
  | padding t =>
    obtain ⟨hsize, rfl⟩ := hpadding t rfl
    obtain ⟨n, hn⟩ : ∃ n, t.size = n + 1 := ⟨t.size - 1, by omega⟩
    have hmax : t.size ≤ TX_EXTRA_PADDING_MAX_COUNT := hwritable
    refine ⟨TX_EXTRA_TAG_PADDING, List.replicate n 0, { seen with padding := true },
      by simp [extraFieldBytes, hn, List.replicate_succ, TX_EXTRA_TAG_PADDING],
      by intro k; cases k <;> simp, ?_⟩
    simp only [ExtraSeen.get, TransactionExtraField.kind] at hnew
    rw [parseTransactionExtraRound, if_pos rfl, if_neg (by simp [hnew]),
      readPadding_replicate n 1 (by omega)]
    dsimp only
    rw [if_neg (by omega), Nat.add_comm, ← hn]
  | publicKey t =>
    refine ⟨TX_EXTRA_TAG_PUBKEY, t.publicKey.bytes ++ rest, { seen with pubkey := true }, rfl,
      by intro k; cases k <;> simp, ?_⟩
    simp only [ExtraSeen.get, TransactionExtraField.kind] at hnew
    rw [parseTransactionExtraRound, if_neg (by decide), if_pos rfl, if_neg (by simp [hnew]),
      Common.read_append (Crypto.PublicKey.length_bytes _)]
    dsimp only
    rw [Crypto.PublicKey.ofBytes_bytes]
  | nonce t =>
    refine ⟨TX_EXTRA_NONCE, UInt8.ofNat t.nonce.length :: (t.nonce ++ rest),
      { seen with nonce := true }, rfl, by intro k; cases k <;> simp, ?_⟩
    have hlength : (UInt8.ofNat t.nonce.length).toNat = t.nonce.length := by
      have hmax : t.nonce.length ≤ TX_EXTRA_NONCE_MAX_COUNT := hwritable
      rw [UInt8.toNat_ofNat', Nat.mod_eq_of_lt (by unfold TX_EXTRA_NONCE_MAX_COUNT at hmax; omega)]
    simp only [ExtraSeen.get, TransactionExtraField.kind] at hnew
    rw [parseTransactionExtraRound, if_neg (by decide), if_neg (by decide), if_pos rfl,
      if_neg (by simp [hnew])]
    simp only [Common.readUInt8, hlength, Common.read_append rfl]
  | mergeMiningTag t =>
    refine ⟨TX_EXTRA_MERGE_MINING_TAG, mergeMiningTagToBinaryArray t ++ rest,
      { seen with mergeMiningTag := true }, rfl, by intro k; cases k <;> simp, ?_⟩
    simp only [ExtraSeen.get, TransactionExtraField.kind] at hnew
    rw [parseTransactionExtraRound, if_neg (by decide), if_neg (by decide), if_neg (by decide),
      if_pos rfl, if_neg (by simp [hnew]), readMergeMiningTag_mergeMiningTagToBinaryArray]

/-- What `parseTransactionExtra` needs of the fields written to read them back: at most one
field of each kind, each accepted by the visitor, and a padding of at least one byte only as the
last field. -/
structure ExtraFieldsReadable (fields : List TransactionExtraField) : Prop where
  nodup : (fields.map TransactionExtraField.kind).Nodup
  writable : ∀ f ∈ fields, ExtraFieldWritable f
  padding_last : ∀ t, .padding t ∈ fields → 1 ≤ t.size ∧ fields.getLast? = some (.padding t)

namespace ExtraFieldsReadable

variable {f : TransactionExtraField} {fields : List TransactionExtraField}

theorem tail (h : ExtraFieldsReadable (f :: fields)) : ExtraFieldsReadable fields := by
  refine ⟨(List.nodup_cons.1 h.nodup).2, fun g hg => h.writable g (List.mem_cons_of_mem f hg), ?_⟩
  intro t ht
  obtain ⟨hsize, hlast⟩ := h.padding_last t (List.mem_cons_of_mem f ht)
  cases fields with
  | nil => cases ht
  | cons g fields => exact ⟨hsize, by rwa [List.getLast?_cons_cons] at hlast⟩

/-- A padding at the head is the only field. -/
theorem padding_head {t : TransactionExtraPadding} (h : ExtraFieldsReadable (f :: fields))
    (hf : f = .padding t) : 1 ≤ t.size ∧ fields = [] := by
  subst hf
  obtain ⟨hsize, hlast⟩ := h.padding_last t List.mem_cons_self
  refine ⟨hsize, ?_⟩
  cases fields with
  | nil => rfl
  | cons g fields =>
    rw [List.getLast?_cons_cons] at hlast
    have hmem := List.mem_map_of_mem (f := TransactionExtraField.kind) (List.mem_of_getLast? hlast)
    exact absurd hmem (List.nodup_cons.1 h.nodup).1

theorem length_le (h : ExtraFieldsReadable fields) :
    fields.length ≤ (fields.flatMap extraFieldBytes).length := by
  induction fields with
  | nil => simp
  | cons f fields ih =>
    have hhead : 1 ≤ (extraFieldBytes f).length := by
      cases f with
      | padding t => simpa [extraFieldBytes] using (h.padding_head rfl).1
      | publicKey t => simp [extraFieldBytes]
      | nonce t => simp [extraFieldBytes]
      | mergeMiningTag t => simp [extraFieldBytes]
    have htail := ih h.tail
    simp only [List.length_cons, List.flatMap_cons, List.length_append]
    omega

end ExtraFieldsReadable

theorem parseTransactionExtraLoop_flatMap (written : List TransactionExtraField) :
    ∀ (rounds : ℕ) (seen : ExtraSeen) (fields : List TransactionExtraField),
      ExtraFieldsReadable written → written.length ≤ rounds →
      (∀ f ∈ written, seen.get f.kind = false) →
      parseTransactionExtraLoop rounds seen fields (written.flatMap extraFieldBytes) =
        (true, fields ++ written) := by
  induction written with
  | nil =>
    intro rounds seen fields _ _ _
    simp [parseTransactionExtraLoop]
  | cons f written ih =>
    intro rounds seen fields h hrounds hnew
    obtain ⟨rounds, rfl⟩ : ∃ r, rounds = r + 1 := ⟨rounds - 1, by simp at hrounds; omega⟩
    obtain ⟨c, tail, seen', hbytes, hset, hround⟩ :=
      parseTransactionExtraRound_extraFieldBytes (parseTransactionExtraLoop rounds) fields
        (written.flatMap extraFieldBytes) (hnew f List.mem_cons_self)
        (h.writable f List.mem_cons_self)
        fun t ht => ⟨(h.padding_head ht).1, by rw [(h.padding_head ht).2]; rfl⟩
    -- the kinds still to come differ from the one just set
    have hnew' : ∀ g ∈ written, seen'.get g.kind = false := by
      intro g hg
      have hne : g.kind ≠ f.kind := fun heq =>
        (List.nodup_cons.1 h.nodup).1 (heq ▸ List.mem_map_of_mem hg)
      rw [hset, hnew g (List.mem_cons_of_mem f hg), Bool.false_or, decide_eq_false hne]
    rw [List.flatMap_cons, hbytes, parseTransactionExtraLoop, hround,
      ih rounds seen' (fields ++ [f]) h.tail (by simpa using hrounds) hnew', List.append_assoc,
      List.singleton_append]

theorem parseTransactionExtra_writeTransactionExtra {fields : List TransactionExtraField}
    (h : ExtraFieldsReadable fields) :
    writeTransactionExtra [] fields = (true, fields.flatMap extraFieldBytes) ∧
      parseTransactionExtra (fields.flatMap extraFieldBytes) = (true, fields) := by
  refine ⟨by rw [writeTransactionExtra_eq fields [] h.writable, List.nil_append], ?_⟩
  have hlength := h.length_le
  rw [parseTransactionExtra]
  split_ifs with hempty
  · rw [hempty] at hlength
    rw [List.length_eq_zero_iff.1 (Nat.le_zero.1 hlength)]
  · rw [parseTransactionExtraLoop_flatMap fields _ _ [] h hlength (by intro f _; cases f <;> rfl),
      List.nil_append]

/-- `parseTransactionExtra` is its loop run to the end: no number of rounds beyond the length of
the extra changes the result. -/
theorem loop_eq_parseTransactionExtra (extra : List UInt8) {rounds : ℕ}
    (h : extra.length ≤ rounds) :
    parseTransactionExtraLoop rounds ⟨false, false, false, false⟩ [] extra =
      parseTransactionExtra extra := by
  obtain ⟨more, rfl⟩ := Nat.exists_eq_add_of_le h
  rw [parseTransactionExtra, parseTransactionExtraLoop_rounds _ _ _ _ _ le_rfl]
  split_ifs with hempty
  · rw [hempty, parseTransactionExtraLoop]
  · rfl

/-- The writer and the parser agree on every list of at most one field of each kind, with a
nonce of at most 255 bytes and a padding of 1 to 255 bytes only as the last field; and on any
bytes the parser ends within as many rounds as there are bytes, with at most one field of each
kind. -/
theorem transactionExtra_roundtrip_and_unique_kinds :
    (∀ fields : List TransactionExtraField, (fields.map TransactionExtraField.kind).Nodup →
      (∀ t : TransactionExtraNonce, .nonce t ∈ fields →
        t.nonce.length ≤ TX_EXTRA_NONCE_MAX_COUNT) →
      (∀ t : TransactionExtraPadding, .padding t ∈ fields →
        1 ≤ t.size ∧ t.size ≤ TX_EXTRA_PADDING_MAX_COUNT ∧ fields.getLast? = some (.padding t)) →
      ∃ extra, writeTransactionExtra [] fields = (true, extra) ∧
        parseTransactionExtra extra = (true, fields)) ∧
    ∀ extra : List UInt8,
      (∀ rounds, extra.length ≤ rounds →
        parseTransactionExtraLoop rounds ⟨false, false, false, false⟩ [] extra =
          parseTransactionExtra extra) ∧
      ((parseTransactionExtra extra).2.map TransactionExtraField.kind).Nodup := by
  refine ⟨fun fields hnodup hnonce hpadding => ?_, fun extra => ⟨fun rounds h => ?_, ?_⟩⟩
  · have hwritable : ∀ f ∈ fields, ExtraFieldWritable f := by
      intro f hf
      cases f with
      | padding t => exact (hpadding t hf).2.1
      | publicKey t => trivial
      | nonce t => exact hnonce t hf
      | mergeMiningTag t => trivial
    exact ⟨_, parseTransactionExtra_writeTransactionExtra
      ⟨hnodup, hwritable, fun t ht => ⟨(hpadding t ht).1, (hpadding t ht).2.2⟩⟩⟩
  · exact loop_eq_parseTransactionExtra extra h
  · rw [← loop_eq_parseTransactionExtra extra le_rfl]
    exact parseTransactionExtraLoop_covers _ extra ExtraSeen.covers_empty


/-! ## Payment IDs -/

def TX_EXTRA_NONCE_PAYMENT_ID : UInt8 := 0x00

/-- `setPaymentIdToTransactionExtraNonce`: the nonce of a payment ID, its tag and its bytes. -/
def setPaymentIdToTransactionExtraNonce (paymentId : Crypto.Hash) : List UInt8 :=
  TX_EXTRA_NONCE_PAYMENT_ID :: paymentId.bytes

/-- `parsePaymentId`: the hash of 64 hex digits, `none` where `podFromHex` returns false. -/
def parsePaymentId (paymentIdString : List Char) : Option Crypto.Hash :=
  Crypto.Hash.ofBytes <$> Common.podFromHex 32 paymentIdString

/-- `createTxExtraWithPaymentId`: `extra` with the payment ID's nonce appended, `none` where it
returns false. -/
def createTxExtraWithPaymentId (paymentIdString : List Char) (extra : List UInt8) :
    Option (List UInt8) := do
  let paymentIdBin ← parsePaymentId paymentIdString
  let extraNonce := setPaymentIdToTransactionExtraNonce paymentIdBin
  addExtraNonceToTransactionExtra extra extraNonce

/-- A payment ID makes an extra exactly when it is 64 hex digits: its nonce of 33 bytes always
fits. -/
theorem createTxExtraWithPaymentId_isSome_iff {paymentIdString : List Char}
    {extra : List UInt8} :
    (createTxExtraWithPaymentId paymentIdString extra).isSome ↔
      paymentIdString.length = 64 ∧ ∀ c ∈ paymentIdString, (Common.fromHexChar c).isSome := by
  have hnonce : ∀ paymentId : Crypto.Hash,
      (addExtraNonceToTransactionExtra extra (setPaymentIdToTransactionExtraNonce paymentId)).isSome := by
    intro paymentId
    rw [addExtraNonceToTransactionExtra, setPaymentIdToTransactionExtraNonce, if_neg]
    · rfl
    · rw [List.length_cons, Crypto.Hash.length_bytes]
      decide
  rw [show (64 : ℕ) = 2 * 32 from rfl, ← Common.podFromHex_isSome_iff]
  cases hpod : Common.podFromHex 32 paymentIdString with
  | none => simp [createTxExtraWithPaymentId, parsePaymentId, hpod]
  | some data =>
    simp only [createTxExtraWithPaymentId, parsePaymentId, hpod, Option.map_eq_map,
      Option.map_some, Option.bind_eq_bind, Option.bind_some, Option.isSome_some, iff_true]
    exact hnonce _

/-! ## Reading fields back -/

/-- `findTransactionExtraFieldByType`: the first field of the type `get?` picks out. -/
def findTransactionExtraFieldByType {α : Type} (get? : TransactionExtraField → Option α)
    (fields : List TransactionExtraField) : Option α :=
  fields.findSome? get?

def TransactionExtraField.nonce? : TransactionExtraField → Option TransactionExtraNonce
  | .nonce field => some field
  | _ => none

def TransactionExtraField.publicKey? : TransactionExtraField → Option TransactionExtraPublicKey
  | .publicKey field => some field
  | _ => none

/-- `getPaymentIdFromTransactionExtraNonce`: the hash after the payment ID tag of a nonce of
33 bytes. -/
def getPaymentIdFromTransactionExtraNonce (extraNonce : List UInt8) : Option Crypto.Hash :=
  if 32 + 1 ≠ extraNonce.length then none
  else if TX_EXTRA_NONCE_PAYMENT_ID ≠ extraNonce.headD 0 then none
  else some (Crypto.Hash.ofBytes extraNonce.tail)

/-- `getPaymentIdFromTxExtra`: the payment ID of the first nonce, when the extra parses. -/
def getPaymentIdFromTxExtra (extra : List UInt8) : Option Crypto.Hash :=
  let (parsed, txExtraFields) := parseTransactionExtra extra
  if !parsed then none
  else
    match findTransactionExtraFieldByType TransactionExtraField.nonce? txExtraFields with
    | some extraNonce => getPaymentIdFromTransactionExtraNonce extraNonce.nonce
    | none => none

/-- `getTransactionPublicKeyFromExtra`: the key of the first public key field among those parsed,
the zero key when there is none. -/
def getTransactionPublicKeyFromExtra (txExtra : List UInt8) : Crypto.PublicKey :=
  match findTransactionExtraFieldByType TransactionExtraField.publicKey?
      (parseTransactionExtra txExtra).2 with
  | some pubKeyField => pubKeyField.publicKey
  | none => ⟨0⟩

theorem getPaymentIdFromTransactionExtraNonce_setPaymentIdToTransactionExtraNonce
    (paymentId : Crypto.Hash) :
    getPaymentIdFromTransactionExtraNonce (setPaymentIdToTransactionExtraNonce paymentId) =
      some paymentId := by
  rw [getPaymentIdFromTransactionExtraNonce, setPaymentIdToTransactionExtraNonce,
    if_neg (by simp), if_neg (by simp), List.tail_cons, Crypto.Hash.ofBytes_bytes]

end CryptoNote
