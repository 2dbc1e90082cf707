import Mathlib.Data.List.Basic
import Mathlib.Data.List.Lex
import Mathlib.Data.Char
import Mathlib.Order.Basic
import Traaitt.Library.Except
import Traaitt.Library.CType
import Traaitt.Library.KeyedList

/-! `JsonValue.cpp`: the JSON text of a `JsonValue` and its reader. The printer writes strings and
object keys between quotes as they are. The reader takes every character of a string through
`in >> c`, which skips white space, so a string comes back without its spaces, tabs and line
breaks (`fromString_toString_eq_dropSpaces`); the value and the text otherwise agree. Streams are the lists of
characters not read yet; the doubles of the value are of a type `Real` whose fixed-point text and
parse are parameters. -/

namespace Common

open CType

/-- `JsonValue`, an object being its `std::map` as the list of its entries in key order. -/
inductive JsonValue (Real : Type)
  | array (value : List (JsonValue Real))
  | bool (value : Bool)
  | integer (value : Int64)
  | nil
  | object (value : List (List Char × JsonValue Real))
  | real (value : Real)
  | string (value : List Char)
  deriving Repr

variable {Real : Type}

/-! ## The printer -/

/-- The loop of the `REAL` case on the reversed text: a trailing zero is dropped while the
character before it is not the point. -/
def dropTrailingZeros : List Char → List Char
  | '0' :: rest@(c :: _) => if c = '.' then '0' :: rest else dropTrailingZeros rest
  | reversed => reversed

/-- `out << valueInteger`: the decimal digits, after a minus sign when negative. -/
def printInteger (value : Int64) : List Char :=
  if value.toInt < 0 then '-' :: Nat.toDigits 10 value.toInt.natAbs
  else Nat.toDigits 10 value.toInt.toNat

section Printer

variable (formatReal : Real → List Char)

mutual

/-- `JsonValue::toString`, which is `operator<<`; `formatReal` is the text of
`std::fixed << std::setprecision(11)`. -/
def JsonValue.toString : JsonValue Real → List Char
  | .array [] => ['[', ']']
  | .array (v :: vs) => '[' :: v.toString ++ arrayTailToString vs ++ [']']
  | .bool value => if value then ['t', 'r', 'u', 'e'] else ['f', 'a', 'l', 's', 'e']
  | .integer value => printInteger value
  | .nil => ['n', 'u', 'l', 'l']
  | .object [] => ['{', '}']
  | .object ((name, v) :: entries) =>
    '{' :: '"' :: name ++ '"' :: ':' :: v.toString ++ objectTailToString entries ++ ['}']
  | .real value => (dropTrailingZeros (formatReal value).reverse).reverse
  | .string value => '"' :: value ++ ['"']

/-- The elements of an array after the first, each after a comma. -/
def arrayTailToString : List (JsonValue Real) → List Char
  | [] => []
  | v :: vs => ',' :: v.toString ++ arrayTailToString vs

/-- The entries of an object after the first, each after a comma. -/
def objectTailToString : List (List Char × JsonValue Real) → List Char
  | [] => []
  | (name, v) :: entries =>
    ',' :: '"' :: name ++ '"' :: ':' :: v.toString ++ objectTailToString entries

end

end Printer

/-! ## The reader -/

/-- `readChar`: `in >> c` skips white space before the character it extracts. -/
def readChar : List Char → Except String (Char × List Char)
  | [] => .error "Unable to parse: unexpected end of stream"
  | c :: stream => if isSpace c then readChar stream else .ok (c, stream)

/-- `readNonWsChar`: its loop ends after one round, `readChar` never returning white space
(`isSpace_of_readChar`). -/
def readNonWsChar (stream : List Char) : Except String (Char × List Char) :=
  readChar stream

/-- The loop of `readStringToken` on the characters `readChar` extracts, white space skipped:
a backslash is kept with the character after it, and the first other quote ends the token.
`escaped` says that the previous character was a backslash. -/
def readStringTokenLoop : Bool → List Char → Except String (List Char × List Char)
  | _, [] => .error "Unable to parse: unexpected end of stream"
  | escaped, c :: stream =>
    if isSpace c then readStringTokenLoop escaped stream
    else if escaped then
      (fun (value, stream) => (c :: value, stream)) <$> readStringTokenLoop false stream
    else if c = '"' then .ok ([], stream)
    else
      (fun (value, stream) => (c :: value, stream)) <$>
        readStringTokenLoop (c = '\\') stream

/-- `readStringToken`, after the opening quote. -/
def readStringToken (stream : List Char) : Except String (List Char × List Char) :=
  readStringTokenLoop false stream

/-- `in.read(data, n)` of the letters of a literal after its first, compared with `letters`. A
stream with fewer characters fails the read, and what would be compared is not written. -/
def readLiteral (letters stream : List Char) : Except String (List Char) :=
  if stream.take letters.length = letters then .ok (stream.drop letters.length)
  else .error "Unable to parse"

def readTrue (stream : List Char) : Except String (List Char) :=
  readLiteral ['r', 'u', 'e'] stream

def readFalse (stream : List Char) : Except String (List Char) :=
  readLiteral ['a', 'l', 's', 'e'] stream

def readNull (stream : List Char) : Except String (List Char) :=
  readLiteral ['u', 'l', 'l'] stream

/-- The first loop of `JsonValue::readNumber`, by `peek`: the digits and points that follow, how
many points they hold, and the stream after them. -/
def readNumberDigits : List Char → List Char × ℕ × List Char
  | [] => ([], 0, [])
  | c :: stream =>
    if c.isDigit then
      let (text, dots, stream) := readNumberDigits stream
      (c :: text, dots, stream)
    else if c = '.' then
      let (text, dots, stream) := readNumberDigits stream
      (c :: text, dots + 1, stream)
    else ([], 0, c :: stream)

/-- The exponent of a real in `JsonValue::readNumber`: after `e`, an optional sign and at least
one digit. -/
def readExponent : List Char → Except String (List Char × List Char)
  | 'e' :: stream =>
    let (sign, stream) :=
      match stream with
      | '+' :: stream => (['+'], stream)
      | '-' :: stream => (['-'], stream)
      | stream => ([], stream)
    match stream with
    | c :: stream =>
      if c.isDigit then
        let (digits, stream) := stream.span Char.isDigit
        .ok ('e' :: sign ++ c :: digits, stream)
      else .error "Unable to parse"
    | [] => .error "Unable to parse"
  | stream => .ok ([], stream)

/-- The value of decimal digits. -/
def ofDecimal (digits : List Char) : ℕ :=
  digits.foldl (fun n c => 10 * n + (c.toNat - 48)) 0

/-- `std::istringstream(text) >> value` into an `int64_t`, on the sign and digits
`readNumber` collects: the value clamped to the range, or zero when no digit follows the sign. -/
def parseInteger (text : List Char) : Int64 :=
  if text.head? = some '-' then
    if text.tail = [] then 0 else Int64.ofIntClamp (-(ofDecimal text.tail : Int))
  else Int64.ofIntClamp (ofDecimal text)

/-- The test of `readNumber` on an integer's text: more than one character, and a zero first or
after the minus sign. -/
def hasLeadingZero (text : List Char) : Bool :=
  1 < text.length && (text[0]? = some '0' || text[0]? = some '-' && text[1]? = some '0')

/-- `JsonValue::readNumber` from its first character `c`; `parseReal` is `std::istringstream(text)
>> value` into a double. -/
def readNumber (parseReal : List Char → Real) (c : Char) (stream : List Char) :
    Except String (JsonValue Real × List Char) :=
  let (digits, dots, stream) := readNumberDigits stream
  let text := c :: digits
  if 0 < dots then
    if 1 < dots then .error "Unable to parse"
    else
      (fun (exponent, stream) => (.real (parseReal (text ++ exponent)), stream)) <$>
        readExponent stream
  else if hasLeadingZero text then .error "Unable to parse"
  else .ok (.integer (parseInteger text), stream)

/-- `value[name] = element` on a `std::map` held as its entries in key order. -/
def insertEntry (name : List Char) (element : JsonValue Real) :
    List (List Char × JsonValue Real) → List (List Char × JsonValue Real)
  | [] => [(name, element)]
  | (key, v) :: entries =>
    if name < key then (name, element) :: (key, v) :: entries
    else if name = key then (name, element) :: entries
    else (key, v) :: insertEntry name element entries

/-- `insert(key, value)`: `std::map::emplace`, which leaves a key that is there with its value. -/
def emplaceEntry (name : List Char) (element : JsonValue Real) :
    List (List Char × JsonValue Real) → List (List Char × JsonValue Real)
  | [] => [(name, element)]
  | (key, v) :: entries =>
    if name < key then (name, element) :: (key, v) :: entries
    else if name = key then (key, v) :: entries
    else (key, v) :: emplaceEntry name element entries

section Containers

variable (readElement : List Char → Except String (JsonValue Real × List Char))

/-- The loop of `JsonValue::readArray`: an element, then `]` or a comma. `rounds` bounds the
number of elements. -/
def readArrayLoop :
    ℕ → List (JsonValue Real) → List Char → Except String (JsonValue Real × List Char)
  | 0, _, _ => .error "Unable to parse: too many elements"
  | rounds + 1, value, stream => do
    let (element, stream) ← readElement stream
    let (c, stream) ← readNonWsChar stream
    if c = ']' then pure (.array (value ++ [element]), stream)
    else if c ≠ ',' then throw "Unable to parse"
    else readArrayLoop rounds (value ++ [element]) stream

/-- `JsonValue::readArray`, after `[`: `]`, or the character put back and the loop. -/
def readArray (rounds : ℕ) (stream : List Char) : Except String (JsonValue Real × List Char) := do
  let (c, rest) ← readNonWsChar stream
  if c = ']' then pure (.array [], rest)
  else readArrayLoop readElement rounds [] (c :: rest)

/-- The loop of `JsonValue::readObject` from the character `c` that opens a name: the name, a
colon, the element, then `}` or a comma and the next character. -/
def readObjectLoop :
    ℕ → List (List Char × JsonValue Real) → Char → List Char →
      Except String (JsonValue Real × List Char)
  | 0, _, _, _ => .error "Unable to parse: too many elements"
  | rounds + 1, value, c, stream => do
    ExceptRun.throwIf (c ≠ '"') "Unable to parse"
    let (name, stream) ← readStringToken stream
    let (c, stream) ← readNonWsChar stream
    ExceptRun.throwIf (c ≠ ':') "Unable to parse"
    let (element, stream) ← readElement stream
    let value := insertEntry name element value
    let (c, stream) ← readNonWsChar stream
    if c = '}' then pure (.object value, stream)
    else do
      ExceptRun.throwIf (c ≠ ',') "Unable to parse"
      let (c, stream) ← readNonWsChar stream
      readObjectLoop rounds value c stream

/-- `JsonValue::readObject`, after `{`. -/
def readObject (rounds : ℕ) (stream : List Char) : Except String (JsonValue Real × List Char) := do
  let (c, stream) ← readNonWsChar stream
  if c = '}' then pure (.object [], stream)
  else readObjectLoop readElement rounds [] c stream

end Containers

section Value

variable (parseReal : List Char → Real)

/-- `operator>>(std::istream &, JsonValue &)`. `fuel` bounds the nesting and the number of
elements of each array and object. -/
def readValue : ℕ → List Char → Except String (JsonValue Real × List Char)
  | 0, _ => .error "Unable to parse: too deep"
  | fuel + 1, stream => do
    let (c, stream) ← readNonWsChar stream
    if c = '[' then readArray (readValue fuel) fuel stream
    else if c = 't' then (fun stream => (.bool true, stream)) <$> readTrue stream
    else if c = 'f' then (fun stream => (.bool false, stream)) <$> readFalse stream
    else if c = '-' ∨ c.isDigit then readNumber parseReal c stream
    else if c = 'n' then (fun stream => (.nil, stream)) <$> readNull stream
    else if c = '{' then readObject (readValue fuel) fuel stream
    else if c = '"' then
      (fun (value, stream) => (.string value, stream)) <$> readStringToken stream
    else throw "Unable to parse"

/-- `JsonValue::fromString`: the value at the start of `source`, what follows it left unread. Every
round of the reader reads a character, so the fuel never runs out first. -/
def fromString (source : List Char) : Except String (JsonValue Real) :=
  Prod.fst <$> readValue parseReal (source.length + 1) source

end Value

/-! ## What the reader gives back -/

section Spec

mutual

/-- The value with the white space of its strings removed. -/
def JsonValue.dropSpaces : JsonValue Real → JsonValue Real
  | .array value => .array (dropSpacesElements value)
  | .object value => .object (dropSpacesEntries value)
  | .string value => .string (value.filter fun c => !isSpace c)
  | v => v

def dropSpacesElements : List (JsonValue Real) → List (JsonValue Real)
  | [] => []
  | v :: vs => v.dropSpaces :: dropSpacesElements vs

def dropSpacesEntries : List (List Char × JsonValue Real) → List (List Char × JsonValue Real)
  | [] => []
  | (name, v) :: entries => (name, v.dropSpaces) :: dropSpacesEntries entries

end

theorem dropSpacesElements_eq_map (value : List (JsonValue Real)) :
    dropSpacesElements value = value.map JsonValue.dropSpaces := by
  induction value with
  | nil => rfl
  | cons v vs ih => rw [dropSpacesElements, ih, List.map_cons]

theorem dropSpacesEntries_eq_map (value : List (List Char × JsonValue Real)) :
    dropSpacesEntries value = value.map fun e => (e.1, e.2.dropSpaces) := by
  induction value with
  | nil => rfl
  | cons e entries ih => rw [dropSpacesEntries, ih, List.map_cons]

/-- Text the reader's tokens give back as it is: no white space, quote or backslash. -/
def PlainText (text : List Char) : Prop :=
  ∀ c ∈ text, isSpace c = false ∧ c ≠ '"' ∧ c ≠ '\\'

instance : DecidablePred PlainText :=
  fun text => inferInstanceAs (Decidable (∀ c ∈ text, _))

/-- The values whose text the reader reads back: no real, no quote or backslash in a string, and
the keys of an object plain and in increasing order, as in a `std::map`. -/
inductive JsonValue.Readable : JsonValue Real → Prop
  | array {value : List (JsonValue Real)} :
      (∀ v ∈ value, v.Readable) → (JsonValue.array value).Readable
  | bool (value : Bool) : (JsonValue.bool value).Readable
  | integer (value : Int64) : (JsonValue.integer value).Readable
  | nil : JsonValue.nil.Readable
  | object {value : List (List Char × JsonValue Real)} :
      (∀ e ∈ value, PlainText e.1) → (value.map Prod.fst).Pairwise (· < ·) →
      (∀ e ∈ value, e.2.Readable) → (JsonValue.object value).Readable
  | string {value : List Char} :
      (∀ c ∈ value, c ≠ '"' ∧ c ≠ '\\') → (JsonValue.string value).Readable

/-- A stream that ends a number: it does not go on with a digit or a point. -/
def StopsNumber (stream : List Char) : Prop :=
  ∀ c ∈ stream.head?, c.isDigit = false ∧ c ≠ '.'

end Spec

/-! ## Tokens -/

theorem readChar_cons {c : Char} (hc : isSpace c = false) (stream : List Char) :
    readChar (c :: stream) = .ok (c, stream) := by
  rw [readChar, if_neg (by simp [hc])]

theorem isSpace_of_readChar :
    ∀ {stream rest : List Char} {c : Char}, readChar stream = .ok (c, rest) → isSpace c = false
  | [], _, _, h => by cases h
  | d :: stream, rest, c, h => by
    rw [readChar] at h
    split_ifs at h with hd
    · exact isSpace_of_readChar h
    · cases h
      simpa using hd

/-- `readStringToken` reads a text without quote or backslash up to the closing quote, less its
white space. -/
theorem readStringTokenLoop_append {text : List Char} (htext : ∀ c ∈ text, c ≠ '"' ∧ c ≠ '\\')
    (rest : List Char) :
    readStringTokenLoop false (text ++ '"' :: rest) =
      .ok (text.filter fun c => !isSpace c, rest) := by
  induction text with
  | nil => rfl
  | cons c text ih =>
    have htail := ih fun d hd => htext d (List.mem_cons_of_mem c hd)
    obtain ⟨hquote, hbackslash⟩ := htext c List.mem_cons_self
    rw [List.cons_append, readStringTokenLoop]
    by_cases hc : isSpace c
    · rw [if_pos hc, htail, List.filter_cons_of_neg (by simp [hc])]
    · rw [if_neg hc, if_neg (by simp), if_neg hquote, decide_eq_false hbackslash, htail,
        List.filter_cons_of_pos (by simpa using hc)]
      rfl

theorem readLiteral_append (letters rest : List Char) :
    readLiteral letters (letters ++ rest) = .ok rest := by
  simp [readLiteral]

/-! ## Integers -/

theorem ofDecimal_toDigits (n : ℕ) : ofDecimal (Nat.toDigits 10 n) = n := by
  induction n using Nat.strongRecOn with
  | _ n ih =>
    by_cases hn : n < 10
    · rw [Nat.toDigits_of_lt_base hn, ofDecimal, List.foldl_cons, List.foldl_nil,
        Nat.toNat_digitChar_sub_48_of_lt_ten hn, Nat.mul_zero, Nat.zero_add]
    · have hdiv : n / 10 < n := Nat.div_lt_self (by omega) (by decide)
      rw [Nat.toDigits_of_base_le (by decide) (by omega), ofDecimal, List.foldl_append,
        ← ofDecimal, ih (n / 10) hdiv, List.foldl_cons, List.foldl_nil,
        Nat.toNat_digitChar_sub_48_of_lt_ten (Nat.mod_lt n (by decide))]
      exact Nat.div_add_mod n 10

/-- The decimal digits of a number start with a digit other than zero, unless the number is
zero. -/
theorem toDigits_eq_cons (n : ℕ) :
    ∃ d digits, Nat.toDigits 10 n = d :: digits ∧ (0 < n → d ≠ '0') := by
  induction n using Nat.strongRecOn with
  | _ n ih =>
    by_cases hn : n < 10
    · refine ⟨_, [], Nat.toDigits_of_lt_base hn, fun hpos => ?_⟩
      simpa using Nat.pos_iff_ne_zero.1 hpos
    · obtain ⟨d, digits, hdigits, hd⟩ := ih (n / 10) (Nat.div_lt_self (by omega) (by decide))
      refine ⟨d, digits ++ [Nat.digitChar (n % 10)], ?_, fun _ => hd (by omega)⟩
      rw [Nat.toDigits_of_base_le (by decide) (by omega), hdigits, List.cons_append]

theorem isDigit_of_mem_toDigits {n : ℕ} {c : Char} (hc : c ∈ Nat.toDigits 10 n) : c.isDigit :=
  Nat.isDigit_of_mem_toDigits (by decide) (by decide) hc

theorem parseInteger_minus (d : Char) (digits : List Char) :
    parseInteger ('-' :: d :: digits) = Int64.ofIntClamp (-(ofDecimal (d :: digits) : Int)) := by
  simp [parseInteger]

theorem parseInteger_of_ne {d : Char} (hd : d ≠ '-') (digits : List Char) :
    parseInteger (d :: digits) = Int64.ofIntClamp (ofDecimal (d :: digits)) := by
  simp [parseInteger, hd]

theorem ofIntClamp_toInt (value : Int64) : Int64.ofIntClamp value.toInt = value := by
  apply Int64.toInt_inj.1
  rw [Int64.toInt_ofIntClamp value.minValue_le_toInt value.toInt_le]

/-- What `readNumber` needs of the text `printInteger` writes: a sign or a digit, then digits, no
leading zero, and `parseInteger` gives the value back. -/
theorem printInteger_eq_cons (value : Int64) :
    ∃ c digits, printInteger value = c :: digits ∧ (c = '-' ∨ c.isDigit) ∧
      (∀ d ∈ digits, d.isDigit) ∧ hasLeadingZero (c :: digits) = false ∧
      parseInteger (c :: digits) = value := by
  by_cases hneg : value.toInt < 0
  · obtain ⟨d, digits, hdigits, hd⟩ := toDigits_eq_cons value.toInt.natAbs
    have hpos : 0 < value.toInt.natAbs := Int.natAbs_pos.2 (by omega)
    have hvalue : -(value.toInt.natAbs : Int) = value.toInt := by omega
    refine ⟨'-', d :: digits, by rw [printInteger, if_pos hneg, hdigits], Or.inl rfl,
      fun e he => isDigit_of_mem_toDigits (hdigits ▸ he), ?_, ?_⟩
    · simp [hasLeadingZero, hd hpos]
    · rw [parseInteger_minus, ← hdigits, ofDecimal_toDigits, hvalue, ofIntClamp_toInt]
  · obtain ⟨d, digits, hdigits, hd⟩ := toDigits_eq_cons value.toInt.toNat
    have hdigit : ∀ e ∈ d :: digits, e.isDigit := fun e he => isDigit_of_mem_toDigits (hdigits ▸ he)
    have hvalue : (value.toInt.toNat : Int) = value.toInt := Int.toNat_of_nonneg (by omega)
    have hminus : d ≠ '-' := by
      intro h
      have := hdigit d List.mem_cons_self
      rw [h] at this
      exact absurd this (by decide)
    refine ⟨d, digits, by rw [printInteger, if_neg hneg, hdigits], Or.inr (hdigit d (by simp)),
      fun e he => hdigit e (List.mem_cons_of_mem d he), ?_, ?_⟩
    · -- a zero first is the whole text of zero
      cases digits with
      | nil => simp [hasLeadingZero]
      | cons e digits =>
        have hnz : value.toInt.toNat ≠ 0 := by
          intro hzero
          rw [hzero, Nat.toDigits_zero] at hdigits
          cases hdigits
        have hne : d ≠ '0' := hd (Nat.pos_of_ne_zero hnz)
        simp [hasLeadingZero, hne, hminus]
    · rw [parseInteger_of_ne hminus, ← hdigits, ofDecimal_toDigits, hvalue, ofIntClamp_toInt]

theorem stopsNumber_nil : StopsNumber [] := by
  intro c hc
  cases hc

theorem stopsNumber_cons {c : Char} (hdigit : c.isDigit = false) (hpoint : c ≠ '.')
    (rest : List Char) : StopsNumber (c :: rest) := by
  intro d hd
  cases hd
  exact ⟨hdigit, hpoint⟩

theorem readNumberDigits_append {digits : List Char} (hdigits : ∀ d ∈ digits, d.isDigit)
    {rest : List Char} (hrest : StopsNumber rest) :
    readNumberDigits (digits ++ rest) = (digits, 0, rest) := by
  induction digits with
  | nil =>
    cases rest with
    | nil => rfl
    | cons c rest =>
      obtain ⟨hdigit, hpoint⟩ := hrest c rfl
      rw [List.nil_append, readNumberDigits, if_neg (by simp [hdigit]), if_neg hpoint]
  | cons d digits ih =>
    rw [List.cons_append, readNumberDigits, if_pos (hdigits d List.mem_cons_self),
      ih fun e he => hdigits e (List.mem_cons_of_mem d he)]

/-- `readNumber` reads an integer back from its text, whatever the doubles. -/
theorem readNumber_printInteger (parseReal : List Char → Real) (value : Int64)
    {rest : List Char} (hrest : StopsNumber rest) :
    ∃ c stream, printInteger value ++ rest = c :: stream ∧ (c = '-' ∨ c.isDigit) ∧
      readNumber parseReal c stream = .ok (.integer value, rest) := by
  obtain ⟨c, digits, hprint, hc, hdigits, hzero, hparse⟩ := printInteger_eq_cons value
  refine ⟨c, digits ++ rest, by rw [hprint, List.cons_append], hc, ?_⟩
  rw [readNumber, readNumberDigits_append hdigits hrest]
  dsimp only
  rw [if_neg (Nat.lt_irrefl 0), if_neg (by simp [hzero]), hparse]

/-! ## Objects -/

theorem insertEntry_of_lt {name : List Char} (element : JsonValue Real) :
    ∀ {value : List (List Char × JsonValue Real)}, (∀ key ∈ value.map Prod.fst, key < name) →
      insertEntry name element value = value ++ [(name, element)]
  | [], _ => rfl
  | (key, v) :: entries, h => by
    have hkey : key < name := h key List.mem_cons_self
    have hne : name ≠ key := fun heq => List.lt_irrefl key (heq ▸ hkey)
    rw [insertEntry, if_neg (List.lt_asymm hkey), if_neg hne,
      insertEntry_of_lt element fun k hk => h k (List.mem_cons_of_mem key hk), List.cons_append]

theorem mem_emplaceEntry {name : List Char} {element : JsonValue Real}
    {x : List Char × JsonValue Real} :
    ∀ {value : List (List Char × JsonValue Real)}, x ∈ emplaceEntry name element value →
      x = (name, element) ∨ x ∈ value
  | [], hx => .inl (List.mem_singleton.1 hx)
  | (key, v) :: entries, hx => by
    rw [emplaceEntry] at hx
    split_ifs at hx
    · exact List.mem_cons.1 hx
    · exact .inr hx
    · rcases List.mem_cons.1 hx with rfl | hx
      · exact .inr List.mem_cons_self
      · exact (mem_emplaceEntry hx).imp_right (List.mem_cons_of_mem _)

theorem emplaceEntry_perm {name : List Char} (element : JsonValue Real) :
    ∀ {value : List (List Char × JsonValue Real)}, name ∉ value.map Prod.fst →
      (emplaceEntry name element value).Perm ((name, element) :: value)
  | [], _ => List.Perm.refl _
  | (key, v) :: entries, h => by
    have hne : name ≠ key := fun heq => h (heq ▸ List.mem_cons_self)
    rw [emplaceEntry, if_neg hne]
    split_ifs
    · exact List.Perm.refl _
    · have hrest := emplaceEntry_perm element fun hmem => h (List.mem_cons_of_mem key hmem)
      exact (hrest.cons (key, v)).trans (List.Perm.swap _ _ _)

theorem pairwise_emplaceEntry {name : List Char} (element : JsonValue Real) :
    ∀ {value : List (List Char × JsonValue Real)}, value.Pairwise (fun a b => a.1 < b.1) →
      (emplaceEntry name element value).Pairwise fun a b => a.1 < b.1
  | [], _ => List.pairwise_singleton _ _
  | (key, v) :: entries, h => by
    rw [emplaceEntry]
    split_ifs with hlt heq
    · -- the new key goes first, below every key of the map
      refine List.Pairwise.cons (fun b hb => ?_) h
      rcases List.mem_cons.1 hb with rfl | hb
      · exact hlt
      · exact lt_trans hlt (List.rel_of_pairwise_cons h hb)
    · exact h
    · refine List.Pairwise.cons (fun b hb => ?_) (pairwise_emplaceEntry element h.of_cons)
      rcases mem_emplaceEntry hb with rfl | hb
      · exact lt_of_le_of_ne (not_lt.1 hlt) (Ne.symm heq)
      · exact List.rel_of_pairwise_cons h hb

theorem foldl_emplaceEntry (value entries : List (List Char × JsonValue Real))
    (hnodup : (value.map Prod.fst ++ entries.map Prod.fst).Nodup)
    (hsorted : value.Pairwise fun a b => a.1 < b.1) :
    (entries.foldl (fun sec entry => emplaceEntry entry.1 entry.2 sec) value).Perm
        (value ++ entries) ∧
      (entries.foldl (fun sec entry => emplaceEntry entry.1 entry.2 sec) value).Pairwise
        fun a b => a.1 < b.1 := by
  induction entries generalizing value with
  | nil => exact ⟨by rw [List.foldl_nil, List.append_nil], hsorted⟩
  | cons entry entries ih =>
    rw [List.map_cons] at hnodup
    have hnew : entry.1 ∉ value.map Prod.fst := by
      rw [List.nodup_append] at hnodup
      exact fun hmem => hnodup.2.2 _ hmem _ List.mem_cons_self rfl
    have hperm := emplaceEntry_perm entry.2 hnew
    -- the map with the entry has the same keys as before, the entry's moved to the front
    have hnodup' : ((emplaceEntry entry.1 entry.2 value).map Prod.fst ++
        entries.map Prod.fst).Nodup := by
      refine ((hperm.map Prod.fst).append_right _).nodup_iff.2 ?_
      rw [List.map_cons, List.cons_append]
      exact List.perm_middle.nodup_iff.1 hnodup
    obtain ⟨hfold, hpairwise⟩ := ih _ hnodup' (pairwise_emplaceEntry entry.2 hsorted)
    refine ⟨?_, hpairwise⟩
    rw [List.foldl_cons]
    exact hfold.trans ((hperm.append_right _).trans List.perm_middle.symm)

theorem foldl_emplaceEntry_eq_insertionSort {entries : List (List Char × JsonValue Real)}
    (hnodup : (entries.map Prod.fst).Nodup) :
    entries.foldl (fun sec entry => emplaceEntry entry.1 entry.2 sec) [] =
      entries.insertionSort fun a b => a.1 ≤ b.1 := by
  obtain ⟨hperm, hsorted⟩ := foldl_emplaceEntry [] entries
    (by rwa [List.map_nil, List.nil_append]) List.Pairwise.nil
  exact KeyedList.eq_insertionSort_of_pairwise hnodup (by rwa [List.nil_append] at hperm) hsorted

/-! ## The printed text -/

section Text

variable (formatReal : Real → List Char)

/-- The text of a readable value starts with the character `operator>>` dispatches on, which is
neither white space nor a closing bracket. -/
theorem JsonValue.Readable.toString_eq_cons {v : JsonValue Real} (h : v.Readable) :
    ∃ c text, v.toString formatReal = c :: text ∧ isSpace c = false ∧ c ≠ ']' := by
  cases h with
  | @array value _ =>
    cases value with
    | nil => exact ⟨_, _, rfl, by decide, by decide⟩
    | cons v vs => exact ⟨_, _, rfl, by decide, by decide⟩
  | bool value => cases value <;> exact ⟨_, _, rfl, by decide, by decide⟩
  | integer value =>
    obtain ⟨c, digits, hprint, hc, -⟩ := printInteger_eq_cons value
    refine ⟨c, digits, hprint, ?_, ?_⟩
    · rcases hc with rfl | hc
      · decide
      · exact isSpace_of_isDigit hc
    · rintro rfl
      rcases hc with hc | hc <;> exact absurd hc (by decide)
  | nil => exact ⟨_, _, rfl, by decide, by decide⟩
  | @object value _ _ _ =>
    cases value with
    | nil => exact ⟨_, _, rfl, by decide, by decide⟩
    | cons e entries => exact ⟨_, _, rfl, by decide, by decide⟩
  | string _ => exact ⟨_, _, rfl, by decide, by decide⟩

theorem JsonValue.Readable.length_toString_pos {v : JsonValue Real} (h : v.Readable) :
    0 < (v.toString formatReal).length := by
  obtain ⟨c, text, htext, -⟩ := h.toString_eq_cons formatReal
  simp [htext]

theorem length_lt_arrayTailToString {w : JsonValue Real} :
    ∀ {vs : List (JsonValue Real)}, w ∈ vs →
      (w.toString formatReal).length < (arrayTailToString formatReal vs).length
  | v :: vs, hw => by
    simp only [arrayTailToString, List.length_append, List.length_cons]
    rcases List.mem_cons.1 hw with rfl | hw
    · omega
    · have := length_lt_arrayTailToString hw
      omega

theorem length_le_arrayTailToString :
    ∀ {vs : List (JsonValue Real)}, (∀ v ∈ vs, v.Readable) →
      2 * vs.length ≤ (arrayTailToString formatReal vs).length
  | [], _ => by simp [arrayTailToString]
  | v :: vs, h => by
    have hv := (h v List.mem_cons_self).length_toString_pos formatReal
    have hvs := length_le_arrayTailToString fun w hw => h w (List.mem_cons_of_mem v hw)
    simp only [arrayTailToString, List.length_append, List.length_cons]
    omega

theorem length_lt_objectTailToString {e : List Char × JsonValue Real} :
    ∀ {entries : List (List Char × JsonValue Real)}, e ∈ entries →
      (e.2.toString formatReal).length < (objectTailToString formatReal entries).length
  | (name, v) :: entries, he => by
    rw [objectTailToString]
    simp only [List.length_cons, List.length_append]
    rcases List.mem_cons.1 he with rfl | he
    · dsimp only
      omega
    · have := length_lt_objectTailToString he
      omega

theorem length_le_objectTailToString :
    ∀ (entries : List (List Char × JsonValue Real)),
      entries.length ≤ (objectTailToString formatReal entries).length
  | [] => Nat.le_refl 0
  | (name, v) :: entries => by
    have := length_le_objectTailToString entries
    rw [objectTailToString]
    simp only [List.length_cons, List.length_append]
    omega

theorem stopsNumber_objectTailToString (entries : List (List Char × JsonValue Real))
    (rest : List Char) : StopsNumber (objectTailToString formatReal entries ++ '}' :: rest) := by
  cases entries with
  | nil => exact stopsNumber_cons (by decide) (by decide) rest
  | cons e entries => exact stopsNumber_cons (by decide) (by decide) _

end Text

/-! ## Arrays and objects read back -/

section Loops

variable (formatReal : Real → List Char)
  (readElement : List Char → Except String (JsonValue Real × List Char))
  (g : JsonValue Real → JsonValue Real)

/-- The array loop reads back the elements after the first, given an element reader that reads
back each of them as `g` of it. -/
theorem readArrayLoop_toString (vs : List (JsonValue Real)) :
    ∀ (v : JsonValue Real) (rounds : ℕ) (value : List (JsonValue Real)) (rest : List Char),
      vs.length < rounds →
      (∀ w ∈ v :: vs, ∀ stream, StopsNumber stream →
        readElement (w.toString formatReal ++ stream) = .ok (g w, stream)) →
      readArrayLoop readElement rounds value
          (v.toString formatReal ++ arrayTailToString formatReal vs ++ ']' :: rest) =
        .ok (.array (value ++ (v :: vs).map g), rest) := by
  induction vs with
  | nil =>
    intro v rounds value rest hrounds hread
    obtain ⟨rounds, rfl⟩ : ∃ r, rounds = r + 1 := ⟨rounds - 1, by simp at hrounds; omega⟩
    rw [arrayTailToString, List.append_nil, readArrayLoop,
      hread v List.mem_cons_self _ (stopsNumber_cons (by decide) (by decide) rest),
      ExceptRun.ok_bind]
    dsimp only
    rw [readNonWsChar, readChar_cons (by decide), ExceptRun.ok_bind]
    rfl
  | cons w ws ih =>
    intro v rounds value rest hrounds hread
    obtain ⟨rounds, rfl⟩ : ∃ r, rounds = r + 1 := ⟨rounds - 1, by simp at hrounds; omega⟩
    have hnext := ih w rounds (value ++ [g v]) rest (by simpa using hrounds)
      fun u hu => hread u (List.mem_cons_of_mem v hu)
    simp only [List.append_assoc] at hnext
    simp only [arrayTailToString, List.append_assoc, List.cons_append]
    rw [readArrayLoop, hread v List.mem_cons_self _ (stopsNumber_cons (by decide) (by decide) _),
      ExceptRun.ok_bind]
    dsimp only
    rw [readNonWsChar, readChar_cons (by decide), ExceptRun.ok_bind]
    dsimp only
    rw [if_neg (by decide), if_neg (by decide), hnext]
    rfl

theorem readStringToken_plain {text : List Char} (htext : PlainText text) (rest : List Char) :
    readStringToken (text ++ '"' :: rest) = .ok (text, rest) := by
  rw [readStringToken, readStringTokenLoop_append (fun c hc => (htext c hc).2) rest,
    List.filter_eq_self.2 fun c hc => by simp [(htext c hc).1]]

/-- The object loop reads back the entries from the first, given keys of plain text in
increasing order above those read so far, and an element reader that reads back each value
as `g` of it. -/
theorem readObjectLoop_toString (entries : List (List Char × JsonValue Real)) :
    ∀ (name : List Char) (v : JsonValue Real) (rounds : ℕ)
      (value : List (List Char × JsonValue Real)) (rest : List Char),
      entries.length < rounds →
      (∀ e ∈ (name, v) :: entries, PlainText e.1) →
      (((name, v) :: entries).map Prod.fst).Pairwise (· < ·) →
      (∀ key ∈ value.map Prod.fst, ∀ e ∈ (name, v) :: entries, key < e.1) →
      (∀ e ∈ (name, v) :: entries, ∀ stream, StopsNumber stream →
        readElement (e.2.toString formatReal ++ stream) = .ok (g e.2, stream)) →
      readObjectLoop readElement rounds value '"'
          (name ++ '"' :: ':' :: (v.toString formatReal ++
            (objectTailToString formatReal entries ++ '}' :: rest))) =
        .ok (.object (value ++ ((name, v) :: entries).map fun e => (e.1, g e.2)), rest) := by
  intro name v rounds value rest hrounds hplain hsorted habove hread
  obtain ⟨rounds, rfl⟩ : ∃ r, rounds = r + 1 := ⟨rounds - 1, by omega⟩
  -- the name, the colon and the value, common to the last entry and the others
  rw [readObjectLoop, ExceptRun.throwIf_neg _ (by decide), ExceptRun.ok_bind,
    readStringToken_plain (hplain _ List.mem_cons_self), ExceptRun.ok_bind]
  dsimp only
  rw [readNonWsChar, readChar_cons (by decide), ExceptRun.ok_bind]
  dsimp only
  rw [ExceptRun.throwIf_neg _ (by decide), ExceptRun.ok_bind,
    hread _ List.mem_cons_self _ (stopsNumber_objectTailToString formatReal entries rest),
    ExceptRun.ok_bind]
  dsimp only
  rw [insertEntry_of_lt _ fun key hkey => habove key hkey _ List.mem_cons_self]
  cases entries with
  | nil =>
    rw [objectTailToString, List.nil_append, readNonWsChar, readChar_cons (by decide),
      ExceptRun.ok_bind]
    rfl
  | cons e entries =>
    obtain ⟨name', v'⟩ := e
    have hnext := readObjectLoop_toString entries name' v' rounds (value ++ [(name, g v)]) rest
      (by simpa using hrounds) (fun e he => hplain e (List.mem_cons_of_mem _ he))
      (List.pairwise_cons.1 hsorted).2
      (by
        intro key hkey e he
        rw [List.map_append, List.mem_append] at hkey
        rcases hkey with hkey | hkey
        · exact habove key hkey e (List.mem_cons_of_mem _ he)
        · rw [List.map_singleton, List.mem_singleton] at hkey
          subst hkey
          exact (List.pairwise_cons.1 hsorted).1 e.1 (List.mem_map_of_mem he))
      (fun e he => hread e (List.mem_cons_of_mem _ he))
    simp only [objectTailToString, List.append_assoc, List.cons_append]
    rw [readNonWsChar, readChar_cons (by decide), ExceptRun.ok_bind]
    dsimp only
    rw [if_neg (by decide), ExceptRun.throwIf_neg _ (by decide), ExceptRun.ok_bind,
      readNonWsChar, readChar_cons (by decide), ExceptRun.ok_bind]
    dsimp only
    rw [hnext, List.append_assoc]
    rfl

end Loops

/-! ## The round trip -/

section RoundTrip

variable (formatReal : Real → List Char) (parseReal : List Char → Real)

theorem sign_or_digit_ne {c : Char} (hc : c = '-' ∨ c.isDigit) :
    isSpace c = false ∧ c ≠ '[' ∧ c ≠ 't' ∧ c ≠ 'f' := by
  rcases hc with rfl | hc
  · decide
  · refine ⟨isSpace_of_isDigit hc, ?_, ?_, ?_⟩ <;>
    · rintro rfl
      exact absurd hc (by decide)

/-- `operator>>` reads back the text of every readable value, less the white space of its
strings, whatever follows it that does not go on with a number. -/
theorem JsonValue.Readable.readValue_toString {v : JsonValue Real} (h : v.Readable) :
    ∀ (fuel : ℕ) (rest : List Char), (v.toString formatReal).length ≤ fuel → StopsNumber rest →
      readValue parseReal fuel (v.toString formatReal ++ rest) = .ok (v.dropSpaces, rest) := by
  induction h with
  | @array value hvalue ih =>
    intro fuel rest hfuel hrest
    have hpos := (JsonValue.Readable.array hvalue).length_toString_pos formatReal
    obtain ⟨fuel, rfl⟩ : ∃ f, fuel = f + 1 := ⟨fuel - 1, by omega⟩
    cases value with
    | nil =>
      simp only [JsonValue.toString, List.cons_append, List.nil_append]
      rw [readValue, readNonWsChar, readChar_cons (by decide), ExceptRun.ok_bind]
      dsimp only
      rw [if_pos rfl, readArray, readNonWsChar, readChar_cons (by decide), ExceptRun.ok_bind]
      rfl
    | cons v vs =>
      have hlength : (v.toString formatReal).length + (arrayTailToString formatReal vs).length + 1
          ≤ fuel := by
        simp only [JsonValue.toString, List.length_cons, List.length_append] at hfuel
        omega
      have htail := length_le_arrayTailToString formatReal
        fun w hw => hvalue w (List.mem_cons_of_mem v hw)
      have hv := (hvalue v List.mem_cons_self).length_toString_pos formatReal
      obtain ⟨c, text, htext, hspace, hbracket⟩ :=
        (hvalue v List.mem_cons_self).toString_eq_cons formatReal
      have hloop := readArrayLoop_toString formatReal (readValue parseReal fuel)
        JsonValue.dropSpaces vs v fuel [] rest (by omega) (by
          intro w hw stream hstream
          refine ih w hw fuel stream ?_ hstream
          rcases List.mem_cons.1 hw with rfl | hw
          · omega
          · have := length_lt_arrayTailToString formatReal hw
            omega)
      rw [htext] at hloop
      simp only [List.cons_append, List.append_assoc] at hloop
      simp only [JsonValue.toString, List.cons_append, List.append_assoc, List.nil_append]
      rw [readValue, readNonWsChar, readChar_cons (by decide), ExceptRun.ok_bind]
      dsimp only
      rw [if_pos rfl, readArray, readNonWsChar, htext, List.cons_append, readChar_cons hspace,
        ExceptRun.ok_bind]
      dsimp only
      rw [if_neg hbracket, hloop, JsonValue.dropSpaces, dropSpacesElements_eq_map, List.nil_append]
  | bool value =>
    intro fuel rest hfuel _
    obtain ⟨fuel, rfl⟩ : ∃ f, fuel = f + 1 := ⟨fuel - 1, by cases value <;> simp [JsonValue.toString] at hfuel <;> omega⟩
    cases value
    · rw [JsonValue.toString, if_neg (by decide), List.cons_append, readValue, readNonWsChar,
        readChar_cons (by decide), ExceptRun.ok_bind]
      dsimp only
      rw [if_neg (by decide), if_neg (by decide), if_pos rfl, readFalse, readLiteral_append,
        ExceptRun.map_ok]
      rfl
    · rw [JsonValue.toString, if_pos rfl, List.cons_append, readValue, readNonWsChar,
        readChar_cons (by decide), ExceptRun.ok_bind]
      dsimp only
      rw [if_neg (by decide), if_pos rfl, readTrue, readLiteral_append, ExceptRun.map_ok]
      rfl
  | integer value =>
    intro fuel rest hfuel hrest
    obtain ⟨c, stream, hprint, hc, hread⟩ := readNumber_printInteger parseReal value hrest
    obtain ⟨hspace, hbracket, ht, hf⟩ := sign_or_digit_ne hc
    have hpos := (JsonValue.Readable.integer value).length_toString_pos formatReal
    obtain ⟨fuel, rfl⟩ : ∃ f, fuel = f + 1 := ⟨fuel - 1, by omega⟩
    rw [JsonValue.toString, hprint, readValue, readNonWsChar, readChar_cons hspace,
      ExceptRun.ok_bind]
    dsimp only
    rw [if_neg hbracket, if_neg ht, if_neg hf, if_pos hc, hread]
    rfl
  | nil =>
    intro fuel rest hfuel _
    obtain ⟨fuel, rfl⟩ : ∃ f, fuel = f + 1 := ⟨fuel - 1, by simp [JsonValue.toString] at hfuel; omega⟩
    rw [JsonValue.toString, List.cons_append, readValue, readNonWsChar, readChar_cons (by decide),
      ExceptRun.ok_bind]
    dsimp only
    rw [if_neg (by decide), if_neg (by decide), if_neg (by decide), if_neg (by decide), if_pos rfl,
      readNull, readLiteral_append, ExceptRun.map_ok]
    rfl
  | @object value hplain hsorted hvalue ih =>
    intro fuel rest hfuel hrest
    have hpos := (JsonValue.Readable.object hplain hsorted hvalue).length_toString_pos formatReal
    obtain ⟨fuel, rfl⟩ : ∃ f, fuel = f + 1 := ⟨fuel - 1, by omega⟩
    cases value with
    | nil =>
      simp only [JsonValue.toString, List.cons_append, List.nil_append]
      rw [readValue, readNonWsChar, readChar_cons (by decide), ExceptRun.ok_bind]
      dsimp only
      rw [if_neg (by decide), if_neg (by decide), if_neg (by decide), if_neg (by decide),
        if_neg (by decide), if_pos rfl, readObject, readNonWsChar, readChar_cons (by decide),
        ExceptRun.ok_bind]
      rfl
    | cons e entries =>
      obtain ⟨name, v⟩ := e
      have hlength : (v.toString formatReal).length + (objectTailToString formatReal entries).length
          + 1 ≤ fuel := by
        simp only [JsonValue.toString, List.length_cons, List.length_append] at hfuel
        omega
      have htail := length_le_objectTailToString formatReal entries
      have hloop := readObjectLoop_toString formatReal (readValue parseReal fuel)
        JsonValue.dropSpaces entries name v fuel [] rest (by omega) hplain hsorted (by simp) (by
          intro e he stream hstream
          refine ih e he fuel stream ?_ hstream
          rcases List.mem_cons.1 he with rfl | he
          · dsimp only
            omega
          · have := length_lt_objectTailToString formatReal he
            omega)
      simp only [JsonValue.toString, List.cons_append, List.append_assoc, List.nil_append]
      rw [readValue, readNonWsChar, readChar_cons (by decide), ExceptRun.ok_bind]
      dsimp only
      rw [if_neg (by decide), if_neg (by decide), if_neg (by decide), if_neg (by decide),
        if_neg (by decide), if_pos rfl, readObject, readNonWsChar, readChar_cons (by decide),
        ExceptRun.ok_bind]
      dsimp only
      rw [if_neg (by decide), hloop, JsonValue.dropSpaces, dropSpacesEntries_eq_map,
        List.nil_append]
  | @string value hvalue =>
    intro fuel rest hfuel _
    obtain ⟨fuel, rfl⟩ : ∃ f, fuel = f + 1 := ⟨fuel - 1, by simp [JsonValue.toString] at hfuel; omega⟩
    simp only [JsonValue.toString, List.cons_append, List.append_assoc]
    rw [readValue, readNonWsChar, readChar_cons (by decide), ExceptRun.ok_bind]
    dsimp only
    rw [if_neg (by decide), if_neg (by decide), if_neg (by decide), if_neg (by decide),
      if_neg (by decide), if_neg (by decide), if_pos rfl, readStringToken,
      readStringTokenLoop_append hvalue, ExceptRun.map_ok]
    rfl

/-- `JsonValue::fromString` reads the text of every readable value back as the value with the
white space of its strings removed. -/
theorem fromString_toString_eq_dropSpaces {v : JsonValue Real} (h : v.Readable) :
    fromString parseReal (v.toString formatReal) = .ok v.dropSpaces := by
  have hread := h.readValue_toString formatReal parseReal ((v.toString formatReal).length + 1) []
    (Nat.le_succ _) stopsNumber_nil
  rw [List.append_nil] at hread
  rw [fromString, hread]
  rfl

/-- A string with a space comes back without it. -/
theorem fromString_toString_spaced_string :
    (JsonValue.string ['a', ' ', 'b'] : JsonValue Unit).Readable ∧
      fromString (fun _ => ())
          ((JsonValue.string ['a', ' ', 'b'] : JsonValue Unit).toString fun _ => []) =
        .ok (JsonValue.string ['a', 'b']) := by
  have hreadable : (JsonValue.string ['a', ' ', 'b'] : JsonValue Unit).Readable :=
    .string (by simp)
  refine ⟨hreadable, ?_⟩
  rw [fromString_toString_eq_dropSpaces (fun _ => []) (fun _ => ()) hreadable]
  rfl

end RoundTrip

end Common
