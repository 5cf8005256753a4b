/-
The small language of argument strings: values and records of values
separated by commas, as in `base=0x20000000,security=ns`.

A token reaches to the next comma, which belongs to it, or to the end of
the string. Every value is one token, so a record is read by taking a
key up to the equals sign and one token behind it, over and over; each
round shortens the text. The first problem from left to right is the one
that is reported.
-/
namespace DmaController.Argument

-- ============================================================== faults

/-- What is wrong with an argument string. -/
inductive Fault where
  | expectedInteger
  /-- The number does not fit its type. -/
  | overflow
  | expectedBool
  /-- A reference by name to something that was never named. -/
  | unknownReference
  /-- A key without an equals sign behind it. -/
  | expectedKey
  | unknownKey
  | repeatedKey
  | missingKey
  /-- None of the names the type has. -/
  | unknownName
  /-- Text behind the end of the value. -/
  | trailing
  deriving DecidableEq

/-- An argument string that could not be read. -/
structure Error where
  argument : String
  fault : Fault
  deriving DecidableEq

def Error.message (e : Error) : String :=
  s!"Failed to parse {e.argument}"

-- ============================================================== tokens

/-- The first token and the text behind its comma. -/
def token (text : List Char) : List Char × List Char :=
  (text.takeWhile (· ≠ ','), (text.dropWhile (· ≠ ',')).drop 1)

theorem length_token_le (text : List Char) : (token text).2.length ≤ text.length := by
  have := (List.dropWhile_sublist (l := text) (· ≠ ',')).length_le
  simp only [token, List.length_drop]
  omega

/-- A value of one type, read from its token. -/
abbrev Reader (α : Type) := List Char → Except Fault α

-- ============================================================= numbers

/-- The value of a digit. -/
def digit? (c : Char) : Option Nat :=
  if '0' ≤ c ∧ c ≤ '9' then some (c.toNat - '0'.toNat)
  else if 'a' ≤ c ∧ c ≤ 'z' then some (c.toNat - 'a'.toNat + 10)
  else if 'A' ≤ c ∧ c ≤ 'Z' then some (c.toNat - 'A'.toNat + 10)
  else none

/-- The number with these digits in a base, after the digits of
`value`. -/
def digitsValue? (base : Nat) (value : Nat) : List Char → Option Nat
  | [] => some value
  | c :: rest => do
    let d ← digit? c
    if d < base then digitsValue? base (value * base + d) rest else none

/-- The number with these digits in a base, one leading plus sign being
allowed; there has to be a digit. -/
def unsigned? (base : Nat) (digits : List Char) : Option Nat :=
  let digits :=
    match digits with
    | '+' :: rest => rest
    | digits => digits
  if digits.isEmpty then none else digitsValue? base 0 digits

/-- The number in a token without a suffix; a mark in front chooses the
base. -/
def marked? : List Char → Option Nat
  | '0' :: 'x' :: digits => unsigned? 16 digits
  | '0' :: 'o' :: digits => unsigned? 8 digits
  | '0' :: 'b' :: digits => unsigned? 2 digits
  | digits => unsigned? 10 digits

/-- The suffixes of a number, each with the shift it stands for. -/
def suffixes : List (List Char × Nat) :=
  [(['k', 'K'], 10), (['m', 'M'], 20), (['g', 'G'], 30), (['t', 'T'], 40)]

/-- Cuts off a suffix letter that stands at the end of a token and
nowhere before. -/
def cutSuffix? (letters : List Char) (text : List Char) : Option (List Char) :=
  let front := text.takeWhile fun c => !letters.contains c
  if front.length + 1 = text.length then some front else none

/-- The digits of a number, and the shift its suffix stands for. -/
def splitSuffix (text : List Char) : List Char × Nat :=
  (suffixes.findSome? fun suffix => (cutSuffix? suffix.1 text).map (·, suffix.2)).getD (text, 0)

/-- Reads a number below `limit`. The digits have to fit 64 bits; bits
that a suffix shifts out of those are lost. -/
def number (limit : Nat) : Reader Nat := fun text =>
  let (digits, shift) := splitSuffix text
  match marked? digits with
  | none => .error .expectedInteger
  | some value =>
    if UInt64.size ≤ value then
      .error .expectedInteger
    else
      let shifted := (value <<< shift) % UInt64.size
      if shifted < limit then .ok shifted else .error .overflow

def number8 : Reader UInt8 := fun text => UInt8.ofNat <$> number UInt8.size text

def number32 : Reader UInt32 := fun text => UInt32.ofNat <$> number UInt32.size text

def number64 : Reader UInt64 := fun text => UInt64.ofNat <$> number UInt64.size text

-- ============================================== switches and names

/-- Reads a switch. -/
def switch : Reader Bool := fun text =>
  let word := String.ofList text
  if word = "on" ∨ word = "true" then .ok true
  else if word = "off" ∨ word = "false" then .ok false
  else .error .expectedBool

/-- Reads one of several names. -/
def name {α : Type} (names : List (String × α)) : Reader α := fun text =>
  match names.lookup (String.ofList text) with
  | some value => .ok value
  | none => .error .unknownName

/-- Reads one of several names inside a record, where a token that
starts with `id_` refers to something by name. -/
def fieldName {α : Type} (names : List (String × α)) : Reader α := fun text =>
  if ['i', 'd', '_'].isPrefixOf text then .error .unknownReference else name names text

-- ============================================================= records

/-- One field of a record that is being read into a draft of type
`δ`. -/
structure Field (δ : Type) where
  key : String
  required : Bool
  read : Reader (δ → δ)

namespace Field

/-- A field whose value a reader reads and a function puts in its
place. -/
def of {δ α : Type} (key : String) (required : Bool) (reader : Reader α) (put : α → δ → δ) :
    Field δ :=
  { key, required, read := fun text => put <$> reader text }

end Field

/-- Reads the fields of a record into a draft, `seen` being the keys
before them. -/
def readFields {δ : Type} (fields : List (Field δ)) (seen : List String) (draft : δ)
    (text : List Char) : Except Fault (δ × List String) :=
  if _ : text = [] then
    .ok (draft, seen)
  else
    let key := text.takeWhile (· ≠ '=')
    match _ : text.dropWhile (· ≠ '=') with
    | [] => .error .expectedKey
    | _ :: value =>
      if key.contains ',' then
        .error .expectedKey
      else
        match fields.find? fun field => field.key == String.ofList key with
        | none => .error .unknownKey
        | some field =>
          if seen.contains field.key then
            .error .repeatedKey
          else
            match field.read (token value).1 with
            | .error e => .error e
            | .ok put => readFields fields (field.key :: seen) (put draft) (token value).2
termination_by text.length
decreasing_by
  have shorter := length_token_le value
  have left := (List.dropWhile_sublist (l := text) (· ≠ '=')).length_le
  simp_all only [List.length_cons]
  omega

/-- Reads a record: a draft to start from, and its fields. A required
field has to be there. -/
def record {δ : Type} (start : δ) (fields : List (Field δ)) (text : List Char) :
    Except Fault δ := do
  let (draft, seen) ← readFields fields [] start text
  if fields.any fun field => field.required && !seen.contains field.key then
    throw .missingKey
  return draft

/-- Reads a whole argument that is a single value. -/
def single {α : Type} (reader : Reader α) (text : List Char) : Except Fault α := do
  let value ← reader (token text).1
  if (token text).2.isEmpty then
    return value
  else
    throw .trailing

/-- Reads an argument string. -/
def parse {α : Type} (read : List Char → Except Fault α) (argument : String) :
    Except Error α :=
  (read argument.toList).mapError fun fault => ⟨argument, fault⟩

end DmaController.Argument
