import Traaitt.CryptoNote.Pod
import Traaitt.Library.Except

/-! `KVBinaryOutputStreamSerializer`: the writer of the key-value binary format of the RPC
("portable storage"). It keeps a stack of levels, each an object or an array, and a stack of
memory streams, one for each open object. An object is written into a stream of its own and
copied into its parent's at `endObject`, after its name, its type and its field count. An array's
header (its name, its element type and its size) is written with its first element, since only
that element's call tells the type. `dump` writes the format's header, the root's field count and
the root's stream.

A type's `serialize` drives the writer through a sequence of `ISerializer` calls; `KVValue` is
the tree such calls walk, and `KVValue.calls` the calls. Each call is one step of the writer, and
the bytes a tree's calls append are `KVValue.entryBytes` (`run_calls_field`). -/

namespace CryptoNote

/-! ## `KVBinaryCommon.h` -/

def PORTABLE_STORAGE_SIGNATUREA : UInt32 := 0x01011101
def PORTABLE_STORAGE_SIGNATUREB : UInt32 := 0x01020101
def PORTABLE_STORAGE_FORMAT_VER : UInt8 := 1

def PORTABLE_RAW_SIZE_MARK_MASK : UInt8 := 0x03
def PORTABLE_RAW_SIZE_MARK_BYTE : UInt8 := 0
def PORTABLE_RAW_SIZE_MARK_WORD : UInt8 := 1
def PORTABLE_RAW_SIZE_MARK_DWORD : UInt8 := 2
def PORTABLE_RAW_SIZE_MARK_INT64 : UInt8 := 3

def BIN_KV_SERIALIZE_TYPE_INT64 : UInt8 := 1
def BIN_KV_SERIALIZE_TYPE_INT32 : UInt8 := 2
def BIN_KV_SERIALIZE_TYPE_INT16 : UInt8 := 3
def BIN_KV_SERIALIZE_TYPE_INT8 : UInt8 := 4
def BIN_KV_SERIALIZE_TYPE_UINT64 : UInt8 := 5
def BIN_KV_SERIALIZE_TYPE_UINT32 : UInt8 := 6
def BIN_KV_SERIALIZE_TYPE_UINT16 : UInt8 := 7
def BIN_KV_SERIALIZE_TYPE_UINT8 : UInt8 := 8
def BIN_KV_SERIALIZE_TYPE_DOUBLE : UInt8 := 9
def BIN_KV_SERIALIZE_TYPE_STRING : UInt8 := 10
def BIN_KV_SERIALIZE_TYPE_BOOL : UInt8 := 11
def BIN_KV_SERIALIZE_TYPE_OBJECT : UInt8 := 12
def BIN_KV_SERIALIZE_TYPE_ARRAY : UInt8 := 13

def BIN_KV_SERIALIZE_FLAG_ARRAY : UInt8 := 0x80

/-- `KVBinaryStorageBlockHeader`, packed. -/
structure KVBinaryStorageBlockHeader where
  signatureA : UInt32
  signatureB : UInt32
  ver : UInt8
  deriving DecidableEq, Repr

/-- The memory of the header. -/
def KVBinaryStorageBlockHeader.bytes (hdr : KVBinaryStorageBlockHeader) : List UInt8 :=
  Crypto.podBytes 4 hdr.signatureA.toBitVec ++ Crypto.podBytes 4 hdr.signatureB.toBitVec ++
    [hdr.ver]

/-! ## Sizes and names -/

/-- `packVarint<T>(s, type_or, pv)`: `pv << 2` cut to the `width` bytes of `T`, with the size mark
in its low bits, as `T`'s memory. -/
def packVarint (width : ℕ) (typeOr : UInt8) (pv : UInt64) : List UInt8 :=
  Radix.leBytes width ((pv <<< 2).toNat % 2 ^ (8 * width) ||| typeOr.toNat)

/-- `writeArraySize(s, val)`: the size in 1, 2, 4 or 8 bytes, the smallest it fits in. -/
def writeArraySize (val : UInt64) : Except String (List UInt8) :=
  if val ≤ 63 then .ok (packVarint 1 PORTABLE_RAW_SIZE_MARK_BYTE val)
  else if val ≤ 16383 then .ok (packVarint 2 PORTABLE_RAW_SIZE_MARK_WORD val)
  else if val ≤ 1073741823 then .ok (packVarint 4 PORTABLE_RAW_SIZE_MARK_DWORD val)
  else if val > 4611686018427387903 then .error "failed to pack varint - too big amount"
  else .ok (packVarint 8 PORTABLE_RAW_SIZE_MARK_INT64 val)

/-- `writeElementName(s, name)`: its length in one byte, then the name. -/
def writeElementName (name : List UInt8) : Except String (List UInt8) :=
  if name.length > 255 then .error "Element name is too long"
  else .ok (UInt8.ofNat name.length :: name)

/-! ## The writer -/

inductive State
  | root
  | object
  | arrayPrefix
  | array
  deriving DecidableEq, Repr

/-- `Level`: an object (`Level(name)`, counting its fields) or an array (`Level(name, size)`,
with its size). -/
structure Level where
  state : State
  name : List UInt8
  count : UInt64
  deriving DecidableEq, Repr

/-- The writer: `m_objectsStack` and `m_stack`, each with its back first. -/
structure KVBinaryOutputStreamSerializer where
  objectsStack : List (List UInt8)
  stack : List Level
  deriving DecidableEq, Repr

/-- The integer types of the `operator()` overloads, with their type mark, width and sign. -/
inductive IntegerKind
  | uint8
  | int16
  | uint16
  | int32
  | uint32
  | int64
  | uint64
  deriving DecidableEq, Repr

def IntegerKind.type : IntegerKind → UInt8
  | .uint8 => BIN_KV_SERIALIZE_TYPE_UINT8
  | .int16 => BIN_KV_SERIALIZE_TYPE_INT16
  | .uint16 => BIN_KV_SERIALIZE_TYPE_UINT16
  | .int32 => BIN_KV_SERIALIZE_TYPE_INT32
  | .uint32 => BIN_KV_SERIALIZE_TYPE_UINT32
  | .int64 => BIN_KV_SERIALIZE_TYPE_INT64
  | .uint64 => BIN_KV_SERIALIZE_TYPE_UINT64

def IntegerKind.width : IntegerKind → ℕ
  | .uint8 => 1
  | .int16 | .uint16 => 2
  | .int32 | .uint32 => 4
  | .int64 | .uint64 => 8

def IntegerKind.signed : IntegerKind → Bool
  | .int16 | .int32 | .int64 => true
  | .uint8 | .uint16 | .uint32 | .uint64 => false

namespace KVBinaryOutputStreamSerializer

/-- The constructor's `beginObject(std::string())`: the root object, with its stream. -/
def create : KVBinaryOutputStreamSerializer :=
  ⟨[[]], [⟨.object, [], 0⟩]⟩

/-- Writing `bytes` to `stream()`, the stream on top of `m_objectsStack`. -/
def write (w : KVBinaryOutputStreamSerializer) (bytes : List UInt8) :
    KVBinaryOutputStreamSerializer :=
  match w.objectsStack with
  | stream :: streams => { w with objectsStack := (stream ++ bytes) :: streams }
  | [] => w

/-- `checkArrayPreamble(type)`: an array whose first element this is gets its header, and is from
then on in the `Array` state. -/
def checkArrayPreamble (type : UInt8) (w : KVBinaryOutputStreamSerializer) :
    Except String KVBinaryOutputStreamSerializer :=
  match w.stack with
  | level :: levels =>
    if level.state = .arrayPrefix then do
      let name ← writeElementName level.name
      let size ← writeArraySize level.count
      pure { w.write (name ++ [BIN_KV_SERIALIZE_FLAG_ARRAY ||| type] ++ size) with
        stack := { level with state := .array } :: levels }
    else pure w
  | [] => pure w

/-- `writeElementPrefix(type, name)`: outside an array, the name and the type of a value, which
the level counts; an element of an array has none. -/
def writeElementPrefix (type : UInt8) (name : List UInt8) (w : KVBinaryOutputStreamSerializer) :
    Except String KVBinaryOutputStreamSerializer := do
  let w ← checkArrayPreamble type w
  match w.stack with
  | level :: levels =>
    if level.state ≠ .array then do
      let w ← if name ≠ [] then do
          let nameBytes ← writeElementName name
          pure (w.write (nameBytes ++ [type]))
        else pure w
      pure { w with stack := { level with count := level.count + 1 } :: levels }
    else pure w
  | [] => pure w

def beginObject (name : List UInt8) (w : KVBinaryOutputStreamSerializer) :
    Except String KVBinaryOutputStreamSerializer := do
  let w ← checkArrayPreamble BIN_KV_SERIALIZE_TYPE_OBJECT w
  pure ⟨[] :: w.objectsStack, ⟨.object, name, 0⟩ :: w.stack⟩

/-- `endObject()`: the object's prefix, field count and stream go to its parent's stream. -/
def endObject (w : KVBinaryOutputStreamSerializer) :
    Except String KVBinaryOutputStreamSerializer :=
  match w.stack, w.objectsStack with
  | level :: levels, objStream :: streams => do
    let w ← writeElementPrefix BIN_KV_SERIALIZE_TYPE_OBJECT level.name ⟨streams, levels⟩
    let size ← writeArraySize level.count
    pure (w.write (size ++ objStream))
  | _, _ => pure w

def beginArray (size : UInt64) (name : List UInt8) (w : KVBinaryOutputStreamSerializer) :
    KVBinaryOutputStreamSerializer :=
  { w with stack := ⟨.arrayPrefix, name, size⟩ :: w.stack }

/-- `endArray()`: an array that got an element counts as one field of the object it is in. -/
def endArray (w : KVBinaryOutputStreamSerializer) : KVBinaryOutputStreamSerializer :=
  match w.stack with
  | level :: parent :: levels =>
    -- `validArray`: the array is in the `Array` state
    { w with stack := if parent.state = .object ∧ level.state = .array then
        { parent with count := parent.count + 1 } :: levels
      else parent :: levels }
  | _ => { w with stack := w.stack.drop 1 }

/-- `operator()(value, name)` for a value whose memory is `bytes`: its prefix, then `bytes`. -/
def writeValue (type : UInt8) (bytes : List UInt8) (name : List UInt8)
    (w : KVBinaryOutputStreamSerializer) : Except String KVBinaryOutputStreamSerializer := do
  let w ← writeElementPrefix type name w
  pure (w.write bytes)

/-- `operator()` of an integer type: `writePod` of the value. -/
def serializeInteger (kind : IntegerKind) (value : BitVec (8 * kind.width)) :
    List UInt8 → KVBinaryOutputStreamSerializer → Except String KVBinaryOutputStreamSerializer :=
  writeValue kind.type (Crypto.podBytes kind.width value)

def serializeUInt8 (value : UInt8) := serializeInteger .uint8 value.toBitVec
def serializeInt16 (value : Int16) := serializeInteger .int16 value.toBitVec
def serializeUInt16 (value : UInt16) := serializeInteger .uint16 value.toBitVec
def serializeInt32 (value : Int32) := serializeInteger .int32 value.toBitVec
def serializeUInt32 (value : UInt32) := serializeInteger .uint32 value.toBitVec
def serializeInt64 (value : Int64) := serializeInteger .int64 value.toBitVec
def serializeUInt64 (value : UInt64) := serializeInteger .uint64 value.toBitVec

/-- `operator()(double &value, name)`, for the double whose bits are `value`. -/
def serializeDouble (value : UInt64) : List UInt8 → KVBinaryOutputStreamSerializer →
    Except String KVBinaryOutputStreamSerializer :=
  writeValue BIN_KV_SERIALIZE_TYPE_DOUBLE (Crypto.podBytes 8 value.toBitVec)

/-- `operator()(bool &value, name)`: the byte of a C++ `bool`. -/
def serializeBool (value : Bool) : List UInt8 → KVBinaryOutputStreamSerializer →
    Except String KVBinaryOutputStreamSerializer :=
  writeValue BIN_KV_SERIALIZE_TYPE_BOOL [if value then 1 else 0]

/-- `operator()(std::string &value, name)`: the size, then the bytes. -/
def serializeString (value : List UInt8) (name : List UInt8) (w : KVBinaryOutputStreamSerializer) :
    Except String KVBinaryOutputStreamSerializer := do
  let w ← writeElementPrefix BIN_KV_SERIALIZE_TYPE_STRING name w
  let size ← writeArraySize value.length.toUInt64
  pure (w.write (size ++ value))

/-- `binary(value, size, name)`: a string, but an empty blob is not written at all. -/
def binary (value : List UInt8) (name : List UInt8) (w : KVBinaryOutputStreamSerializer) :
    Except String KVBinaryOutputStreamSerializer :=
  if value.length > 0 then serializeString value name w else pure w

/-- `dump(target)`: the header, the field count of `m_stack.front()`, the root, and `stream()`. -/
def dump (w : KVBinaryOutputStreamSerializer) : Except String (List UInt8) := do
  let hdr : KVBinaryStorageBlockHeader :=
    ⟨PORTABLE_STORAGE_SIGNATUREA, PORTABLE_STORAGE_SIGNATUREB, PORTABLE_STORAGE_FORMAT_VER⟩
  let size ← writeArraySize ((w.stack.getLast?.map (·.count)).getD 0)
  pure (hdr.bytes ++ size ++ w.objectsStack.headD [])

end KVBinaryOutputStreamSerializer

/-! ## The calls of a value tree -/

/-- A value as a type's `serialize` hands it to an `ISerializer`: an integer of one of the
overloads' types, a double (by its bits), a `bool`, a string, a blob, an object of named fields,
or a container of values. -/
inductive KVValue
  | integer (kind : IntegerKind) (value : BitVec (8 * kind.width))
  | double (value : UInt64)
  | bool (value : Bool)
  | string (value : List UInt8)
  | binary (value : List UInt8)
  | object (fields : List (List UInt8 × KVValue))
  | array (elements : List KVValue)

/-- An `ISerializer` call. -/
inductive KVCall
  | beginObject (name : List UInt8)
  | endObject
  | beginArray (size : UInt64) (name : List UInt8)
  | endArray
  | integer (kind : IntegerKind) (value : BitVec (8 * kind.width)) (name : List UInt8)
  | double (value : UInt64) (name : List UInt8)
  | bool (value : Bool) (name : List UInt8)
  | string (value : List UInt8) (name : List UInt8)
  | binary (value : List UInt8) (name : List UInt8)

mutual

/-- The calls that serialize a value under `name`: `serializer(value, name)` of a scalar, and
`beginObject`/`endObject` or `beginArray`/`endArray` around the calls of an object's fields or of
a container's elements, each element under the empty name. -/
def KVValue.calls : KVValue → List UInt8 → List KVCall
  | .integer kind value, name => [.integer kind value name]
  | .double value, name => [.double value name]
  | .bool value, name => [.bool value name]
  | .string value, name => [.string value name]
  | .binary value, name => [.binary value name]
  | .object fields, name => .beginObject name :: fieldsCalls fields ++ [.endObject]
  | .array elements, name =>
    .beginArray elements.length.toUInt64 name :: elementsCalls elements ++ [.endArray]

def fieldsCalls : List (List UInt8 × KVValue) → List KVCall
  | [] => []
  | (name, value) :: fields => value.calls name ++ fieldsCalls fields

def elementsCalls : List KVValue → List KVCall
  | [] => []
  | value :: values => value.calls [] ++ elementsCalls values

end

namespace KVBinaryOutputStreamSerializer

/-- One call on the writer. -/
def step (w : KVBinaryOutputStreamSerializer) : KVCall →
    Except String KVBinaryOutputStreamSerializer
  | .beginObject name => w.beginObject name
  | .endObject => w.endObject
  | .beginArray size name => pure (w.beginArray size name)
  | .endArray => pure w.endArray
  | .integer kind value name => w |> serializeInteger kind value name
  | .double value name => w |> serializeDouble value name
  | .bool value name => w |> serializeBool value name
  | .string value name => w.serializeString value name
  | .binary value name => w.binary value name

/-- The writer after a sequence of calls, or the first exception. -/
def run (w : KVBinaryOutputStreamSerializer) (calls : List KVCall) :
    Except String KVBinaryOutputStreamSerializer :=
  calls.foldlM step w

end KVBinaryOutputStreamSerializer

/-! ## What a tree's calls write -/

/-- The type mark of a value: after its name in an object, and as the element type of an array. -/
def KVValue.type : KVValue → UInt8
  | .integer kind _ => kind.type
  | .double _ => BIN_KV_SERIALIZE_TYPE_DOUBLE
  | .bool _ => BIN_KV_SERIALIZE_TYPE_BOOL
  | .string _ | .binary _ => BIN_KV_SERIALIZE_TYPE_STRING
  | .object _ => BIN_KV_SERIALIZE_TYPE_OBJECT
  | .array _ => BIN_KV_SERIALIZE_TYPE_ARRAY

/-- What is written of a scalar: its memory; of a string or a blob: its size and its bytes. -/
def KVValue.scalarBytes : KVValue → Except String (List UInt8)
  | .integer kind value => pure (Crypto.podBytes kind.width value)
  | .double value => pure (Crypto.podBytes 8 value.toBitVec)
  | .bool value => pure [if value then 1 else 0]
  | .string value | .binary value => do
    let size ← writeArraySize value.length.toUInt64
    pure (size ++ value)
  | .object _ | .array _ => pure []

/-- An array's header: its name, its element type with the array flag, and its size. -/
def arrayHeader (name : List UInt8) (type : UInt8) (size : UInt64) :
    Except String (List UInt8) := do
  let nameBytes ← writeElementName name
  let sizeBytes ← writeArraySize size
  pure (nameBytes ++ [BIN_KV_SERIALIZE_FLAG_ARRAY ||| type] ++ sizeBytes)

mutual

/-- What is written of a value in an array: no name or type, and an object as its field count and
fields. -/
def KVValue.elementBytes : KVValue → Except String (List UInt8)
  | .object fields => do
    let body ← fieldsBytes fields
    let size ← writeArraySize fields.length.toUInt64
    pure (size ++ body)
  | .array elements => elementsBytes elements
  | value => value.scalarBytes

/-- What is written of a field: its name and type and what follows; an array's header and its
elements. The object's bytes are written before its name is checked, as `endObject` does. -/
def KVValue.entryBytes : KVValue → List UInt8 → Except String (List UInt8)
  | .object fields, name => do
    let body ← fieldsBytes fields
    let nameBytes ← writeElementName name
    let size ← writeArraySize fields.length.toUInt64
    pure (nameBytes ++ [BIN_KV_SERIALIZE_TYPE_OBJECT] ++ size ++ body)
  | .array elements, name => do
    let header ← arrayHeader name ((elements.head?.map KVValue.type).getD 0)
      elements.length.toUInt64
    let items ← elementsBytes elements
    pure (header ++ items)
  | value, name => do
    let nameBytes ← writeElementName name
    let bytes ← value.scalarBytes
    pure (nameBytes ++ [value.type] ++ bytes)

def fieldsBytes : List (List UInt8 × KVValue) → Except String (List UInt8)
  | [] => pure []
  | (name, value) :: fields => do
    let entry ← value.entryBytes name
    let rest ← fieldsBytes fields
    pure (entry ++ rest)

def elementsBytes : List KVValue → Except String (List UInt8)
  | [] => pure []
  | value :: values => do
    let element ← value.elementBytes
    let rest ← elementsBytes values
    pure (element ++ rest)

end

mutual

/-- The values that `ISerializer` calls on a `KVBinaryOutputStreamSerializer` build: non-empty
strings and blobs, objects of fields with non-empty names of at most 255 bytes, and non-empty
arrays of elements of one type that are not arrays. -/
def KVValue.Serializable : KVValue → Prop
  | .string value | .binary value => value ≠ []
  | .object fields => FieldsSerializable fields
  | .array [] => False
  | .array (element :: elements) => element.type ≠ BIN_KV_SERIALIZE_TYPE_ARRAY ∧
    ElementsSerializable element.type (element :: elements)
  | .integer _ _ | .double _ | .bool _ => True

def FieldsSerializable : List (List UInt8 × KVValue) → Prop
  | [] => True
  | (name, value) :: fields =>
    name ≠ [] ∧ name.length ≤ 255 ∧ value.Serializable ∧ FieldsSerializable fields

def ElementsSerializable (type : UInt8) : List KVValue → Prop
  | [] => True
  | element :: elements =>
    element.type = type ∧ element.Serializable ∧ ElementsSerializable type elements

end

/-! ## One call at a time -/

namespace KVBinaryOutputStreamSerializer

variable {type : UInt8} {name n : List UInt8} {s : List UInt8} {ss : List (List UInt8)}
  {c size : UInt64} {ls : List Level}

theorem writeElementName_of_le (h : name.length ≤ 255) :
    writeElementName name = .ok (UInt8.ofNat name.length :: name) :=
  if_neg (by omega)

theorem run_nil (w : KVBinaryOutputStreamSerializer) : run w [] = .ok w := rfl

theorem run_append (w : KVBinaryOutputStreamSerializer) (calls calls' : List KVCall) :
    run w (calls ++ calls') = run w calls >>= fun w => run w calls' :=
  List.foldlM_append

theorem run_cons (w : KVBinaryOutputStreamSerializer) (call : KVCall) (calls : List KVCall) :
    run w (call :: calls) = step w call >>= fun w => run w calls :=
  List.foldlM_cons

theorem checkArrayPreamble_of_ne {level : Level} (h : level.state ≠ .arrayPrefix) :
    checkArrayPreamble type ⟨ss, level :: ls⟩ = .ok ⟨ss, level :: ls⟩ := by
  rw [checkArrayPreamble]
  exact if_neg h

theorem checkArrayPreamble_arrayPrefix :
    checkArrayPreamble type ⟨s :: ss, ⟨.arrayPrefix, n, size⟩ :: ls⟩ =
      (fun header => ⟨(s ++ header) :: ss, ⟨.array, n, size⟩ :: ls⟩) <$>
        arrayHeader n type size := by
  simp only [checkArrayPreamble, if_true, arrayHeader]
  cases writeElementName n with
  | error e => rfl
  | ok nameBytes =>
    cases writeArraySize size with
    | error e => rfl
    | ok sizeBytes => rfl

/-- A named value in an object: its name and type, and one more field. -/
theorem writeElementPrefix_object (hname : name ≠ []) (hlength : name.length ≤ 255) :
    writeElementPrefix type name ⟨s :: ss, ⟨.object, n, c⟩ :: ls⟩ =
      .ok ⟨(s ++ (UInt8.ofNat name.length :: name ++ [type])) :: ss, ⟨.object, n, c + 1⟩ :: ls⟩ := by
  rw [writeElementPrefix, checkArrayPreamble_of_ne State.noConfusion]
  simp only [ExceptRun.ok_bind, ne_eq, reduceCtorEq, not_false_eq_true, if_true, hname,
    writeElementName_of_le hlength]
  rfl

/-- An element of an array that has its header: nothing. -/
theorem writeElementPrefix_array :
    writeElementPrefix type name ⟨ss, ⟨.array, n, size⟩ :: ls⟩ = .ok ⟨ss, ⟨.array, n, size⟩ :: ls⟩ := by
  rw [writeElementPrefix, checkArrayPreamble_of_ne State.noConfusion]
  rfl

/-- The first element of an array: the array's header, and no prefix of its own. -/
theorem writeElementPrefix_arrayPrefix :
    writeElementPrefix type name ⟨s :: ss, ⟨.arrayPrefix, n, size⟩ :: ls⟩ =
      (fun header => ⟨(s ++ header) :: ss, ⟨.array, n, size⟩ :: ls⟩) <$>
        arrayHeader n type size := by
  rw [writeElementPrefix, checkArrayPreamble_arrayPrefix, bind_map_left, map_eq_pure_bind]
  rfl

theorem run_singleton (w : KVBinaryOutputStreamSerializer) (call : KVCall) :
    run w [call] = step w call := by
  simp only [run_cons, run_nil]
  exact bind_pure _

/-- A scalar, a string or a blob is one call: its prefix, then its bytes. -/
theorem run_calls_scalar (w : KVBinaryOutputStreamSerializer) (name : List UInt8) {v : KVValue}
    (hobject : v.type ≠ BIN_KV_SERIALIZE_TYPE_OBJECT) (harray : v.type ≠ BIN_KV_SERIALIZE_TYPE_ARRAY)
    (hv : v.Serializable) :
    run w (v.calls name) =
      writeElementPrefix v.type name w >>= fun w => (fun bytes => w.write bytes) <$> v.scalarBytes := by
  cases v with
  | integer kind value =>
    simp only [KVValue.calls, run_singleton, step, serializeInteger, writeValue,
      KVValue.scalarBytes, KVValue.type, map_pure]
  | double value =>
    simp only [KVValue.calls, run_singleton, step, serializeDouble, writeValue,
      KVValue.scalarBytes, KVValue.type, map_pure]
  | bool value =>
    simp only [KVValue.calls, run_singleton, step, serializeBool, writeValue, KVValue.scalarBytes,
      KVValue.type, map_pure]
  | string value =>
    simp only [KVValue.calls, run_singleton, step, serializeString, KVValue.scalarBytes,
      KVValue.type, map_bind, map_pure]
  | binary value =>
    have hlength : value.length > 0 := List.length_pos_iff.2 hv
    simp only [KVValue.calls, run_singleton, step, binary, if_pos hlength, serializeString,
      KVValue.scalarBytes, KVValue.type, map_bind, map_pure]
  | object fields => exact absurd rfl hobject
  | array elements => exact absurd rfl harray

theorem KVValue.eq_object_of_type {v : KVValue} (h : v.type = BIN_KV_SERIALIZE_TYPE_OBJECT) :
    ∃ fields, v = .object fields := by
  cases v with
  | object fields => exact ⟨fields, rfl⟩
  | integer kind value => cases kind <;> simp only [KVValue.type, IntegerKind.type] at h <;> cases h
  | _ => simp only [KVValue.type] at h; cases h

/-- A scalar's entry: its name, its type and its bytes. -/
theorem entryBytes_scalar {v : KVValue} (hobject : v.type ≠ BIN_KV_SERIALIZE_TYPE_OBJECT)
    (harray : v.type ≠ BIN_KV_SERIALIZE_TYPE_ARRAY) (name : List UInt8) :
    v.entryBytes name = writeElementName name >>= fun nameBytes =>
      v.scalarBytes >>= fun bytes => pure (nameBytes ++ [v.type] ++ bytes) := by
  cases v with
  | object fields => exact absurd rfl hobject
  | array elements => exact absurd rfl harray
  | _ => rfl

theorem elementBytes_scalar {v : KVValue} (hobject : v.type ≠ BIN_KV_SERIALIZE_TYPE_OBJECT)
    (harray : v.type ≠ BIN_KV_SERIALIZE_TYPE_ARRAY) : v.elementBytes = v.scalarBytes := by
  cases v with
  | object fields => exact absurd rfl hobject
  | array elements => exact absurd rfl harray
  | _ => rfl

/-- A field that is not an array is its name, its type, and what it writes as an element. -/
theorem entryBytes_of_elementBytes {v : KVValue} {bytes : List UInt8}
    (harray : v.type ≠ BIN_KV_SERIALIZE_TYPE_ARRAY) (hlength : name.length ≤ 255)
    (hbytes : v.elementBytes = .ok bytes) :
    v.entryBytes name = .ok (UInt8.ofNat name.length :: (name ++ v.type :: bytes)) := by
  by_cases hobject : v.type = BIN_KV_SERIALIZE_TYPE_OBJECT
  · -- an object: its field count and fields, after the name and type in a field
    obtain ⟨fields, rfl⟩ := KVValue.eq_object_of_type hobject
    simp only [KVValue.elementBytes] at hbytes
    simp only [KVValue.entryBytes, writeElementName_of_le hlength]
    cases hbody : fieldsBytes fields with
    | error e => simp only [hbody, ExceptRun.error_bind, reduceCtorEq] at hbytes
    | ok body =>
      cases hsize : writeArraySize fields.length.toUInt64 with
      | error e =>
        simp only [hbody, hsize, ExceptRun.ok_bind, ExceptRun.error_bind, reduceCtorEq] at hbytes
      | ok size =>
        simp only [hbody, hsize, ExceptRun.ok_bind, ExceptRun.pure_eq_ok] at hbytes ⊢
        rw [← hbytes]
        simp [KVValue.type]
  · rw [entryBytes_scalar hobject harray, writeElementName_of_le hlength, ExceptRun.ok_bind,
      ← elementBytes_scalar hobject harray, hbytes, ExceptRun.ok_bind]
    simp

theorem write_cons (bytes : List UInt8) : write ⟨s :: ss, ls⟩ bytes = ⟨(s ++ bytes) :: ss, ls⟩ :=
  rfl

theorem step_beginObject {level : Level} (h : level.state ≠ .arrayPrefix) :
    step ⟨ss, level :: ls⟩ (.beginObject name) = .ok ⟨[] :: ss, ⟨.object, name, 0⟩ :: level :: ls⟩ := by
  simp only [step, beginObject, checkArrayPreamble_of_ne h, ExceptRun.ok_bind]
  rfl

theorem step_endObject :
    step ⟨s :: ss, ⟨.object, n, c⟩ :: ls⟩ .endObject =
      writeElementPrefix BIN_KV_SERIALIZE_TYPE_OBJECT n ⟨ss, ls⟩ >>= fun w =>
        (fun size => w.write (size ++ s)) <$> writeArraySize c := by
  simp only [step, endObject, map_eq_pure_bind]

/-- An array that got its elements counts as one field of its object. -/
theorem step_endArray {pn : List UInt8} {pc : UInt64} :
    step ⟨ss, ⟨.array, n, size⟩ :: ⟨.object, pn, pc⟩ :: ls⟩ .endArray =
      .ok ⟨ss, ⟨.object, pn, pc + 1⟩ :: ls⟩ := by
  simp only [step, endArray, and_self, if_true]
  rfl

/-! ## The calls of a tree -/

/-- A scalar field of an object: its entry goes into the object's stream, and the object has one
more field. -/
theorem run_calls_scalar_field {v : KVValue} (hobject : v.type ≠ BIN_KV_SERIALIZE_TYPE_OBJECT)
    (harray : v.type ≠ BIN_KV_SERIALIZE_TYPE_ARRAY) (hv : v.Serializable) (hname : name ≠ [])
    (hlength : name.length ≤ 255) :
    run ⟨s :: ss, ⟨.object, n, c⟩ :: ls⟩ (v.calls name) =
      (fun bytes => ⟨(s ++ bytes) :: ss, ⟨.object, n, c + 1⟩ :: ls⟩) <$> v.entryBytes name := by
  rw [run_calls_scalar _ _ hobject harray hv, writeElementPrefix_object hname hlength,
    ExceptRun.ok_bind, entryBytes_scalar hobject harray, writeElementName_of_le hlength,
    ExceptRun.ok_bind]
  cases v.scalarBytes with
  | error e => rfl
  | ok bytes => simp only [write_cons, List.append_assoc]; rfl

/-- A scalar element of an array that has its header: its bytes go into the stream. -/
theorem run_calls_scalar_element {v : KVValue} (hobject : v.type ≠ BIN_KV_SERIALIZE_TYPE_OBJECT)
    (harray : v.type ≠ BIN_KV_SERIALIZE_TYPE_ARRAY) (hv : v.Serializable) :
    run ⟨s :: ss, ⟨.array, n, size⟩ :: ls⟩ (v.calls []) =
      (fun bytes => ⟨(s ++ bytes) :: ss, ⟨.array, n, size⟩ :: ls⟩) <$> v.elementBytes := by
  rw [run_calls_scalar _ _ hobject harray hv, writeElementPrefix_array, ExceptRun.ok_bind,
    elementBytes_scalar hobject harray]
  rfl

/-- The first element of an array writes the array's header, then is an element like the
others. -/
theorem run_calls_first_element {v : KVValue} (harray : v.type ≠ BIN_KV_SERIALIZE_TYPE_ARRAY)
    (hv : v.Serializable) :
    run ⟨s :: ss, ⟨.arrayPrefix, n, size⟩ :: ls⟩ (v.calls []) =
      arrayHeader n v.type size >>= fun header =>
        run ⟨(s ++ header) :: ss, ⟨.array, n, size⟩ :: ls⟩ (v.calls []) := by
  by_cases hobject : v.type = BIN_KV_SERIALIZE_TYPE_OBJECT
  · -- an object: `beginObject` makes the check before it opens its level
    obtain ⟨fields, rfl⟩ := KVValue.eq_object_of_type hobject
    simp only [KVValue.calls, List.cons_append, run_cons, step, beginObject,
      checkArrayPreamble_arrayPrefix, KVValue.type]
    cases arrayHeader n BIN_KV_SERIALIZE_TYPE_OBJECT size with
    | error e => rfl
    | ok header => rfl
  · simp only [run_calls_scalar _ _ hobject harray hv, writeElementPrefix_arrayPrefix,
      writeElementPrefix_array]
    cases arrayHeader n v.type size with
    | error e => rfl
    | ok header => rfl

theorem toUInt64_succ (k : ℕ) : (k + 1).toUInt64 = k.toUInt64 + 1 :=
  UInt64.ofNat_add k 1

mutual

/-- A field of an object, whatever its value: its entry goes into the object's stream, and the
object has one more field. -/
theorem run_calls_field :
    ∀ (v : KVValue) {name s : List UInt8} {ss : List (List UInt8)} {n : List UInt8} {c : UInt64}
      {ls : List Level}, v.Serializable → name ≠ [] → name.length ≤ 255 →
      run ⟨s :: ss, ⟨.object, n, c⟩ :: ls⟩ (v.calls name) =
        (fun bytes => ⟨(s ++ bytes) :: ss, ⟨.object, n, c + 1⟩ :: ls⟩) <$> v.entryBytes name
  | .object fields, name, s, ss, n, c, ls, hv, hname, hlength => by
    -- the fields go into a stream of their own, copied at `endObject` after the prefix and count
    rw [KVValue.calls, List.cons_append, run_cons, step_beginObject State.noConfusion,
      ExceptRun.ok_bind, run_append, run_fieldsCalls fields hv]
    simp only [KVValue.entryBytes, writeElementName_of_le hlength, UInt64.zero_add,
      List.nil_append]
    cases fieldsBytes fields with
    | error e => rfl
    | ok body =>
      rw [ExceptRun.map_ok, ExceptRun.ok_bind, ExceptRun.ok_bind, run_singleton, step_endObject,
        writeElementPrefix_object hname hlength, ExceptRun.ok_bind]
      cases writeArraySize fields.length.toUInt64 with
      | error e => rfl
      | ok size => simp only [write_cons, List.append_assoc]; rfl
  | .array [], _, _, _, _, _, _, hv, _, _ => absurd hv id
  | .array (first :: elements), name, s, ss, n, c, ls, hv, hname, hlength => by
    -- the first element writes the header, the others follow it, and `endArray` counts the field
    obtain ⟨harray, -, hfirst, helements⟩ := hv
    rw [KVValue.calls, List.cons_append, run_cons]
    simp only [step, pure, Except.pure, ExceptRun.ok_bind, beginArray, elementsCalls,
      List.append_assoc, run_append, run_calls_first_element harray hfirst]
    simp only [KVValue.entryBytes, List.head?_cons, Option.map_some, Option.getD_some,
      elementsBytes]
    cases arrayHeader name first.type (first :: elements).length.toUInt64 with
    | error e => rfl
    | ok header =>
      simp only [ExceptRun.ok_bind, run_calls_element first hfirst harray]
      cases first.elementBytes with
      | error e => rfl
      | ok element =>
        simp only [ExceptRun.map_ok, ExceptRun.ok_bind,
          run_elementsCalls first.type elements harray helements]
        cases elementsBytes elements with
        | error e => rfl
        | ok items =>
          simp only [ExceptRun.map_ok, ExceptRun.ok_bind, run_singleton, step_endArray]
          simp only [List.append_assoc]
          rfl
  | .integer kind value, _, _, _, _, _, _, hv, hname, hlength =>
    run_calls_scalar_field (by simp only [KVValue.type]; cases kind <;> decide)
      (by simp only [KVValue.type]; cases kind <;> decide) hv hname hlength
  | .double value, _, _, _, _, _, _, hv, hname, hlength =>
    run_calls_scalar_field (by simp only [KVValue.type]; decide)
      (by simp only [KVValue.type]; decide) hv hname hlength
  | .bool value, _, _, _, _, _, _, hv, hname, hlength =>
    run_calls_scalar_field (by simp only [KVValue.type]; decide)
      (by simp only [KVValue.type]; decide) hv hname hlength
  | .string value, _, _, _, _, _, _, hv, hname, hlength =>
    run_calls_scalar_field (by simp only [KVValue.type]; decide)
      (by simp only [KVValue.type]; decide) hv hname hlength
  | .binary value, _, _, _, _, _, _, hv, hname, hlength =>
    run_calls_scalar_field (by simp only [KVValue.type]; decide)
      (by simp only [KVValue.type]; decide) hv hname hlength

/-- An element of an array that has its header, anything but an array: its bytes go into the
stream. -/
theorem run_calls_element :
    ∀ (v : KVValue) {s : List UInt8} {ss : List (List UInt8)} {n : List UInt8} {size : UInt64}
      {ls : List Level}, v.Serializable → v.type ≠ BIN_KV_SERIALIZE_TYPE_ARRAY →
      run ⟨s :: ss, ⟨.array, n, size⟩ :: ls⟩ (v.calls []) =
        (fun bytes => ⟨(s ++ bytes) :: ss, ⟨.array, n, size⟩ :: ls⟩) <$> v.elementBytes
  | .object fields, s, ss, n, size, ls, hv, _ => by
    rw [KVValue.calls, List.cons_append, run_cons, step_beginObject State.noConfusion,
      ExceptRun.ok_bind, run_append, run_fieldsCalls fields hv]
    simp only [KVValue.elementBytes, UInt64.zero_add, List.nil_append]
    cases fieldsBytes fields with
    | error e => rfl
    | ok body =>
      rw [ExceptRun.map_ok, ExceptRun.ok_bind, ExceptRun.ok_bind, run_singleton, step_endObject,
        writeElementPrefix_array, ExceptRun.ok_bind]
      cases writeArraySize fields.length.toUInt64 with
      | error e => rfl
      | ok size => rfl
  | .array elements, _, _, _, _, _, _, harray => absurd rfl harray
  | .integer kind value, _, _, _, _, _, hv, harray =>
    run_calls_scalar_element (by simp only [KVValue.type]; cases kind <;> decide) harray hv
  | .double value, _, _, _, _, _, hv, harray => run_calls_scalar_element (by simp only [KVValue.type]; decide) harray hv
  | .bool value, _, _, _, _, _, hv, harray => run_calls_scalar_element (by simp only [KVValue.type]; decide) harray hv
  | .string value, _, _, _, _, _, hv, harray => run_calls_scalar_element (by simp only [KVValue.type]; decide) harray hv
  | .binary value, _, _, _, _, _, hv, harray => run_calls_scalar_element (by simp only [KVValue.type]; decide) harray hv

theorem run_fieldsCalls :
    ∀ (fields : List (List UInt8 × KVValue)) {s : List UInt8} {ss : List (List UInt8)}
      {n : List UInt8} {c : UInt64} {ls : List Level}, FieldsSerializable fields →
      run ⟨s :: ss, ⟨.object, n, c⟩ :: ls⟩ (fieldsCalls fields) =
        (fun body => ⟨(s ++ body) :: ss, ⟨.object, n, c + fields.length.toUInt64⟩ :: ls⟩) <$>
          fieldsBytes fields
  | [], s, ss, n, c, ls, _ => by
    simp only [fieldsCalls, run_nil, fieldsBytes, List.length_nil, map_pure, List.append_nil]
    rw [show Nat.toUInt64 0 = 0 from rfl, UInt64.add_zero]
    rfl
  | (name, v) :: fields, s, ss, n, c, ls, ⟨hname, hlength, hv, hfields⟩ => by
    rw [fieldsCalls, run_append, run_calls_field v hv hname hlength]
    simp only [fieldsBytes]
    cases v.entryBytes name with
    | error e => rfl
    | ok entry =>
      simp only [ExceptRun.map_ok, ExceptRun.ok_bind, run_fieldsCalls fields hfields]
      cases fieldsBytes fields with
      | error e => rfl
      | ok rest =>
        simp only [ExceptRun.map_ok, List.length_cons, toUInt64_succ, List.append_assoc]
        rw [UInt64.add_assoc, UInt64.add_comm 1]
        rfl

theorem run_elementsCalls :
    ∀ (type : UInt8) (elements : List KVValue) {s : List UInt8} {ss : List (List UInt8)}
      {n : List UInt8} {size : UInt64} {ls : List Level}, type ≠ BIN_KV_SERIALIZE_TYPE_ARRAY →
      ElementsSerializable type elements →
      run ⟨s :: ss, ⟨.array, n, size⟩ :: ls⟩ (elementsCalls elements) =
        (fun items => ⟨(s ++ items) :: ss, ⟨.array, n, size⟩ :: ls⟩) <$> elementsBytes elements
  | _, [], s, ss, n, size, ls, _, _ => by
    simp only [elementsCalls, run_nil, elementsBytes, map_pure, List.append_nil]
    rfl
  | type, v :: elements, s, ss, n, size, ls, harray, ⟨htype, hv, helements⟩ => by
    rw [elementsCalls, run_append, run_calls_element v hv (htype ▸ harray)]
    simp only [elementsBytes]
    cases v.elementBytes with
    | error e => rfl
    | ok element =>
      simp only [ExceptRun.map_ok, ExceptRun.ok_bind, run_elementsCalls type elements harray helements]
      cases elementsBytes elements with
      | error e => rfl
      | ok rest => simp only [ExceptRun.map_ok, List.append_assoc]; rfl

end

/-- The calls of the root's fields from the constructor, then `dump`: the format's header, then
what the root writes as an object in an array, its field count and its fields. -/
theorem dump_run_fieldsCalls {fields : List (List UInt8 × KVValue)}
    (hfields : FieldsSerializable fields) :
    (run create (fieldsCalls fields) >>= dump) =
      (fun bytes => (⟨PORTABLE_STORAGE_SIGNATUREA, PORTABLE_STORAGE_SIGNATUREB,
        PORTABLE_STORAGE_FORMAT_VER⟩ : KVBinaryStorageBlockHeader).bytes ++ bytes) <$>
        (KVValue.object fields).elementBytes := by
  rw [create, run_fieldsCalls fields hfields]
  simp only [KVValue.elementBytes]
  cases fieldsBytes fields with
  | error e => rfl
  | ok body =>
    simp only [ExceptRun.map_ok, ExceptRun.ok_bind, dump, List.getLast?_singleton, Option.map_some,
      Option.getD_some, UInt64.zero_add, List.headD_cons, List.nil_append]
    cases writeArraySize fields.length.toUInt64 with
    | error e => rfl
    | ok size => simp only [ExceptRun.ok_bind, List.append_assoc]; rfl

end KVBinaryOutputStreamSerializer

end CryptoNote
