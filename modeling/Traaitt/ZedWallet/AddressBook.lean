import Traaitt.Common.JsonValue

/-! zedwallet's address book on disk. `saveAddressBook` writes `storeToJson(addressBook)`: an
array with one object per entry, whose members `AddressBookEntry::serialize` inserts through a
`JsonOutputStreamSerializer`. `getAddressBook` reads it back with `loadFromJson`, a
`JsonInputValueSerializer` per element. A friendly name is the trimmed line the user typed, so it
may hold spaces; it comes back without them (`loadFromJson_storeToJson`). -/

namespace CryptoNote

open Common CType

/-- `AddressBookEntry` of zedwallet. -/
structure AddressBookEntry where
  friendlyName : List Char
  address : List Char
  paymentID : List Char
  integratedAddress : Bool
  deriving DecidableEq, Repr

variable {Real : Type}

/-- `storeToJsonValue(entry)`: the root object of a `JsonOutputStreamSerializer` after
`AddressBookEntry::serialize`, each `KV_MEMBER` inserting its field. -/
def AddressBookEntry.storeToJsonValue (entry : AddressBookEntry) : JsonValue Real :=
  .object <|
    emplaceEntry "integratedAddress".toList (.bool entry.integratedAddress) <|
    emplaceEntry "paymentID".toList (.string entry.paymentID) <|
    emplaceEntry "address".toList (.string entry.address) <|
    emplaceEntry "friendlyName".toList (.string entry.friendlyName) []

/-- `storeToJson(addressBook)`: the text of `storeContainerToJsonValue`, the array of the entries'
objects. -/
def storeToJson (formatReal : Real → List Char) (addressBook : List AddressBookEntry) :
    List Char :=
  (JsonValue.array (addressBook.map AddressBookEntry.storeToJsonValue)).toString formatReal

/-- `JsonInputValueSerializer::getValue` on the object `js`: the member named `name`, if any. -/
def getValue (js : JsonValue Real) (name : List Char) :
    Except String (Option (JsonValue Real)) :=
  match js with
  | .object entries => .ok (entries.lookup name)
  | _ => .error "JsonValue type is not OBJECT"

/-- `operator()(std::string &value, name)`: the string of the member, or `value` unchanged when
there is none. -/
def loadString (js : JsonValue Real) (name value : List Char) : Except String (List Char) := do
  match ← getValue js name with
  | none => pure value
  | some (.string s) => pure s
  | some _ => throw "JsonValue type is not STRING"

/-- `operator()(bool &value, name)`: the bool of the member, or `value` unchanged when there is
none. -/
def loadBool (js : JsonValue Real) (name : List Char) (value : Bool) : Except String Bool := do
  match ← getValue js name with
  | none => pure value
  | some (.bool b) => pure b
  | some _ => throw "JsonValue type is not BOOL"

/-- `loadFromJsonValue(entry, js)`: a `JsonInputValueSerializer` on `js`, which must be an
object, then `AddressBookEntry::serialize` into `entry`, a default-constructed entry whose
`integratedAddress` the constructor leaves as it finds it. -/
def AddressBookEntry.loadFromJsonValue (entry : AddressBookEntry) (js : JsonValue Real) :
    Except String AddressBookEntry := do
  match js with
  | .object _ => pure ()
  | _ => throw "Serializer doesn't support this type of serialization: Object expected."
  let friendlyName ← loadString js "friendlyName".toList entry.friendlyName
  let address ← loadString js "address".toList entry.address
  let paymentID ← loadString js "paymentID".toList entry.paymentID
  let integratedAddress ← loadBool js "integratedAddress".toList entry.integratedAddress
  pure ⟨friendlyName, address, paymentID, integratedAddress⟩

/-- The loop of `loadFromJsonValue(AddressBook &, js)`: each element loaded into `blank` and
pushed; an element that throws ends it, the entries pushed before it kept. -/
def loadEntries (blank : AddressBookEntry) :
    List AddressBookEntry → List (JsonValue Real) → Bool × List AddressBookEntry
  | addressBook, [] => (true, addressBook)
  | addressBook, element :: elements =>
    match blank.loadFromJsonValue element with
    | .ok entry => loadEntries blank (addressBook ++ [entry]) elements
    | .error _ => (false, addressBook)

/-- `loadFromJson(addressBook, buf)`: its result and the address book as it leaves it. An empty
object has no element to load; any other value that is not an array throws in `operator[]`. -/
def loadFromJson (parseReal : List Char → Real) (blank : AddressBookEntry)
    (addressBook : List AddressBookEntry) (buf : List Char) : Bool × List AddressBookEntry :=
  if buf = [] then (true, addressBook)
  else
    match fromString parseReal buf with
    | .error _ => (false, addressBook)
    | .ok (.array elements) => loadEntries blank addressBook elements
    | .ok (.object []) => (true, addressBook)
    | .ok _ => (false, addressBook)

/-! ## Saving and loading -/

/-- The entry with the white space of its strings removed. -/
def AddressBookEntry.dropSpaces (entry : AddressBookEntry) : AddressBookEntry :=
  ⟨entry.friendlyName.filter fun c => !isSpace c, entry.address.filter fun c => !isSpace c,
    entry.paymentID.filter fun c => !isSpace c, entry.integratedAddress⟩

theorem AddressBookEntry.storeToJsonValue_eq (entry : AddressBookEntry) :
    (entry.storeToJsonValue : JsonValue Real) =
      .object [("address".toList, .string entry.address),
        ("friendlyName".toList, .string entry.friendlyName),
        ("integratedAddress".toList, .bool entry.integratedAddress),
        ("paymentID".toList, .string entry.paymentID)] :=
  rfl

/-- The strings of an entry hold no quote and no backslash, as `JsonValue` text needs. -/
def AddressBookEntry.Quotable (entry : AddressBookEntry) : Prop :=
  ∀ c ∈ entry.friendlyName ++ entry.address ++ entry.paymentID, c ≠ '"' ∧ c ≠ '\\'

theorem AddressBookEntry.readable_storeToJsonValue {entry : AddressBookEntry}
    (h : entry.Quotable) : (entry.storeToJsonValue : JsonValue Real).Readable := by
  rw [storeToJsonValue_eq]
  refine .object ?_ ?_ ?_
  · intro e he
    simp only [List.mem_cons, List.not_mem_nil, or_false] at he
    rcases he with rfl | rfl | rfl | rfl <;> simp [PlainText, CType.isSpace]
  · simp only [List.map_cons, List.map_nil]
    decide
  · intro e he
    simp only [List.mem_cons, List.not_mem_nil, or_false] at he
    rcases he with rfl | rfl | rfl | rfl
    · exact .string fun c hc => h c (by simp [hc])
    · exact .string fun c hc => h c (by simp [hc])
    · exact .bool _
    · exact .string fun c hc => h c (by simp [hc])

theorem AddressBookEntry.loadFromJsonValue_dropSpaces (blank entry : AddressBookEntry) :
    blank.loadFromJsonValue (entry.storeToJsonValue : JsonValue Real).dropSpaces =
      .ok entry.dropSpaces := by
  rw [storeToJsonValue_eq]
  rfl

theorem loadEntries_dropSpaces (blank : AddressBookEntry) (addressBook : List AddressBookEntry) :
    ∀ loaded : List AddressBookEntry,
      loadEntries blank loaded
          (addressBook.map fun entry => (entry.storeToJsonValue : JsonValue Real).dropSpaces) =
        (true, loaded ++ addressBook.map AddressBookEntry.dropSpaces) := by
  induction addressBook with
  | nil => simp [loadEntries]
  | cons entry addressBook ih =>
    intro loaded
    rw [List.map_cons, loadEntries, AddressBookEntry.loadFromJsonValue_dropSpaces]
    dsimp only
    rw [ih, List.map_cons, List.append_assoc, List.singleton_append]

/-- `getAddressBook` after `saveAddressBook`: every entry comes back with the white space of its
friendly name, address and payment ID removed. -/
theorem loadFromJson_storeToJson (formatReal : Real → List Char) (parseReal : List Char → Real)
    (blank : AddressBookEntry) {addressBook : List AddressBookEntry}
    (h : ∀ entry ∈ addressBook, entry.Quotable) :
    loadFromJson parseReal blank [] (storeToJson formatReal addressBook) =
      (true, addressBook.map AddressBookEntry.dropSpaces) := by
  have hreadable : (JsonValue.array (addressBook.map AddressBookEntry.storeToJsonValue) :
      JsonValue Real).Readable := by
    refine .array fun v hv => ?_
    obtain ⟨entry, hentry, rfl⟩ := List.mem_map.1 hv
    exact AddressBookEntry.readable_storeToJsonValue (h entry hentry)
  obtain ⟨c, text, htext, -⟩ := hreadable.toString_eq_cons formatReal
  rw [loadFromJson, storeToJson, if_neg (by simp [htext]),
    fromString_toString_eq_dropSpaces formatReal parseReal hreadable]
  rw [JsonValue.dropSpaces, dropSpacesElements_eq_map, List.map_map]
  exact loadEntries_dropSpaces blank addressBook []

example :
    loadFromJson (fun _ => ()) ⟨[], [], [], false⟩ []
        (storeToJson (fun (_ : Unit) => []) [⟨"my friend".toList, "TRTL".toList, [], false⟩]) =
      (true, [⟨"myfriend".toList, "TRTL".toList, [], false⟩]) := by
  decide

end CryptoNote
