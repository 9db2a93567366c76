import DomainColoring.Decimal

/-!
# JSON

The data of a JSON text, and how they are read from it.
-/

namespace DomainColoring

/-!
## Values

The data of a JSON text. Nothing is decided about a value before somebody asks for it: a number is kept as it is written, and a
string that stands for no text is kept as such.
-/

/-- A number as it is written: digits before the point, digits behind it where there is a point, and the exponent where there is
one. -/
structure JsonNumber where
  negative : Bool
  whole : List Char
  fraction : Option (List Char)
  exponent : Option Int
  deriving DecidableEq, Repr

/-- A string, or nothing where escapes leave half a character. -/
abbrev JsonString := Option String

/-- A JSON value. The members of an object are in order, and a key can come twice. -/
inductive Json where
  | null
  | boolean (value : Bool)
  | number (value : JsonNumber)
  | string (value : JsonString)
  | array (items : List Json)
  | object (members : List (JsonString × Json))

/-!
## Reading

The grammar of JSON texts, without any leniency: no comments, no commas at the end, no signs or zeros in front of a number that
the grammar does not have. Each reader takes what it can from the beginning of a text and returns the rest. A text is nested no
deeper than it is long, which bounds the recursion.
-/

namespace Json

/-- What a reader makes of the beginning of a text, and the rest of the text. -/
abbrev Reader (β : Type) := List Char → Option (β × List Char)

/-- The characters that may stand between the parts of a text. -/
def isSpace (c : Char) : Bool :=
  c = ' ' || c = '\t' || c = '\n' || c = '\r'

/-- The text behind spaces. -/
def skipSpace (text : List Char) : List Char :=
  text.dropWhile isSpace

/-- A row of at least one digit. -/
def readDigits : Reader (List Char) := fun text =>
  let digits := text.takeWhile Char.isDigit
  if digits.isEmpty then none else some (digits, text.dropWhile Char.isDigit)

/-- The digits before the point: a zero alone, or digits that do not begin with one. -/
def readWhole : Reader (List Char)
  | '0' :: rest =>
    match rest with
    | c :: _ => if c.isDigit then none else some (['0'], rest)
    | [] => some (['0'], [])
  | text => readDigits text

/-- The point and the digits behind it, where there are any. -/
def readFraction : Reader (Option (List Char))
  | '.' :: rest => (readDigits rest).map fun (digits, rest) => (some digits, rest)
  | text => some (none, text)

/-- The exponent, where there is one. -/
def readExponent : Reader (Option Int)
  | [] => some (none, [])
  | letter :: rest =>
    if letter = 'e' ∨ letter = 'E' then
      let (negative, digits) := match rest with
        | '-' :: digits => (true, digits)
        | '+' :: digits => (false, digits)
        | digits => (false, digits)
      (readDigits digits).map fun (digits, rest) =>
        let size : Int := Decimal.digitsValue digits
        (some (if negative then -size else size), rest)
    else some (none, letter :: rest)

/-- A number. -/
def readNumber : Reader JsonNumber := fun text => do
  let (negative, text) := match text with
    | '-' :: rest => (true, rest)
    | rest => (false, rest)
  let (whole, text) ← readWhole text
  let (fraction, text) ← readFraction text
  let (exponent, text) ← readExponent text
  return (⟨negative, whole, fraction, exponent⟩, text)

/-- The value of a hexadecimal digit. -/
def hexValue? (c : Char) : Option Nat :=
  if c.isDigit then some (c.toNat - '0'.toNat)
  else if 'a' ≤ c ∧ c ≤ 'f' then some (c.toNat - 'a'.toNat + 10)
  else if 'A' ≤ c ∧ c ≤ 'F' then some (c.toNat - 'A'.toNat + 10)
  else none

/-- Four hexadecimal digits. -/
def readHex : Reader Nat
  | a :: b :: c :: d :: rest => do
    let a ← hexValue? a
    let b ← hexValue? b
    let c ← hexValue? c
    let d ← hexValue? d
    return (((a * 16 + b) * 16 + c) * 16 + d, rest)
  | _ => none

/-- What stands for one or two halves of a character inside a string. -/
inductive Unit16 where
  | char (c : Char)
  /-- The first half of a character beyond `U+FFFF`. -/
  | high (n : Nat)
  /-- The second half of such a character. -/
  | low (n : Nat)

/-- A code of sixteen bits as a character or as half of one. -/
def Unit16.ofCode (n : Nat) : Unit16 :=
  if 0xd800 ≤ n ∧ n < 0xdc00 then .high n
  else if 0xdc00 ≤ n ∧ n < 0xe000 then .low n
  else .char (Char.ofNat n)

/-- The text of a string whose halves of characters all come in pairs. -/
def joinUnits : List Unit16 → Option (List Char)
  | [] => some []
  | .char c :: rest => (joinUnits rest).map (c :: ·)
  | .high h :: .low l :: rest =>
    (joinUnits rest).map (Char.ofNat (0x10000 + (h - 0xd800) * 0x400 + (l - 0xdc00)) :: ·)
  | _ => none

/-- The character that a letter behind a backslash stands for. -/
def escaped? : Char → Option Char
  | '"' => some '"'
  | '\\' => some '\\'
  | '/' => some '/'
  | 'b' => some '\x08'
  | 'f' => some '\x0c'
  | 'n' => some '\n'
  | 'r' => some '\r'
  | 't' => some '\t'
  | _ => none

/-- The units of a string up to the closing quote, for a text of at most `fuel` characters. Control characters have to be
escaped. -/
def readUnits : Nat → Reader (List Unit16)
  | 0, _ => none
  | _ + 1, [] => none
  | _ + 1, '"' :: rest => some ([], rest)
  | fuel + 1, '\\' :: 'u' :: rest => do
    let (code, rest) ← readHex rest
    let (units, rest) ← readUnits fuel rest
    return (.ofCode code :: units, rest)
  | fuel + 1, '\\' :: letter :: rest => do
    let c ← escaped? letter
    let (units, rest) ← readUnits fuel rest
    return (.char c :: units, rest)
  | fuel + 1, c :: rest =>
    if c.toNat < 0x20 ∨ c = '\\' then none
    else (readUnits fuel rest).map fun (units, rest) => (.char c :: units, rest)

/-- A string behind its opening quote. -/
def readString : Reader JsonString := fun text =>
  (readUnits (text.length + 1) text).map fun (units, rest) => ((joinUnits units).map String.ofList, rest)

/-- A word of letters. -/
def readWord (word : String) : Reader Unit := fun text =>
  if word.toList.isPrefixOf text then some ((), text.drop word.length) else none

mutual

/-- A value, nested at most `fuel` deep. -/
def readValue : Nat → Reader Json
  | 0, _ => none
  | fuel + 1, text =>
    match skipSpace text with
    | [] => none
    | 'n' :: rest => (readWord "ull" rest).map fun (_, rest) => (.null, rest)
    | 't' :: rest => (readWord "rue" rest).map fun (_, rest) => (.boolean true, rest)
    | 'f' :: rest => (readWord "alse" rest).map fun (_, rest) => (.boolean false, rest)
    | '"' :: rest => (readString rest).map fun (s, rest) => (.string s, rest)
    | '[' :: rest =>
      match skipSpace rest with
      | ']' :: rest => some (.array [], rest)
      | rest => (readItems fuel rest).map fun (items, rest) => (.array items, rest)
    | '\x7b' :: rest =>
      match skipSpace rest with
      | '\x7d' :: rest => some (.object [], rest)
      | rest => (readMembers fuel rest).map fun (members, rest) => (.object members, rest)
    | text => (readNumber text).map fun (n, rest) => (.number n, rest)

/-- The items of an array up to its end, at least one. -/
def readItems : Nat → Reader (List Json)
  | 0, _ => none
  | fuel + 1, text => do
    let (item, rest) ← readValue fuel text
    match skipSpace rest with
    | ',' :: rest =>
      let (items, rest) ← readItems fuel rest
      return (item :: items, rest)
    | ']' :: rest => return ([item], rest)
    | _ => none

/-- The members of an object up to its end, at least one. -/
def readMembers : Nat → Reader (List (JsonString × Json))
  | 0, _ => none
  | fuel + 1, text =>
    match skipSpace text with
    | '"' :: rest => do
      let (key, rest) ← readString rest
      match skipSpace rest with
      | ':' :: rest => do
        let (value, rest) ← readValue fuel rest
        match skipSpace rest with
        | ',' :: rest =>
          let (members, rest) ← readMembers fuel rest
          return ((key, value) :: members, rest)
        | '\x7d' :: rest => return ([(key, value)], rest)
        | _ => none
      | _ => none
    | _ => none

end

/-- The value of a whole text. -/
def ofText? (text : String) : Option Json :=
  match readValue (2 * text.length + 2) text.toList with
  | some (value, rest) => if (skipSpace rest).isEmpty then some value else none
  | none => none

end Json

end DomainColoring
