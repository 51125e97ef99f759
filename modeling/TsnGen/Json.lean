import TsnGen.Utf8

namespace TsnGen

/-!
# JSON texts

A reader of JSON texts, after the grammar of the format: values, blanks between
tokens, the escapes of a string and the parts of a number.  Members keep their
order and may repeat a name, and a number is kept as it is written, so nothing
of a value is lost.  A text is a list of bytes and has to be UTF-8.
-/

/-- A JSON value: numbers are kept as written, members in their order. -/
inductive Json where
  | null
  | bool (value : Bool)
  | number (literal : List Char)
  | string (text : List Char)
  | array (items : List Json)
  | object (members : List (List Char × Json))

namespace Json

/-- The blanks of the format. -/
def isBlank
    (letter : Char) : Bool :=
  letter = ' ' || letter = '\t' || letter = '\n' || letter = '\r'

/-- Skip blanks in front of a token. -/
def skipBlanks
    (text : List Char) : List Char :=
  text.dropWhile isBlank

/-- Read one character. -/
def expect
    (letter : Char) :
    List Char → Option (List Char)
  | [] => none
  | first :: rest => if first = letter then some rest else none

/-- The value of a hexadecimal digit. -/
def hexDigit?
    (letter : Char) : Option Nat :=
  if '0' ≤ letter ∧ letter ≤ '9' then
    some (letter.toNat - '0'.toNat)
  else if 'a' ≤ letter ∧ letter ≤ 'f' then
    some (letter.toNat - 'a'.toNat + 10)
  else if 'A' ≤ letter ∧ letter ≤ 'F' then
    some (letter.toNat - 'A'.toNat + 10)
  else
    none

/-- Read the four digits of a code unit. -/
def readUnit :
    List Char → Option (Nat × List Char)
  | first :: second :: third :: fourth :: rest => do
      let first ← hexDigit? first
      let second ← hexDigit? second
      let third ← hexDigit? third
      let fourth ← hexDigit? fourth
      some (((first * 16 + second) * 16 + third) * 16 + fourth, rest)
  | _ => none

/-- Read the second half of a pair of code units. -/
def readLowUnit
    (high : Nat) :
    List Char → Option (List Char × List Char)
  | '\\' :: 'u' :: text => do
      let (low, rest) ← readUnit text
      if 0xDC00 ≤ low ∧ low ≤ 0xDFFF then
        some (Utf8.encode (Char.ofNat
          (0x10000 + (high - 0xD800) * 0x400 + (low - 0xDC00))), rest)
      else
        none
  | _ => none

/-- Read a code unit, with the second one of its pair if it starts one. -/
def readScalar
    (text : List Char) : Option (List Char × List Char) := do
  let (unit, rest) ← readUnit text
  if unit < 0xD800 ∨ 0xDFFF < unit then
    some (Utf8.encode (Char.ofNat unit), rest)
  else if unit ≤ 0xDBFF then
    readLowUnit unit rest
  else
    none

/-- Characters that an escape of two characters stands for. -/
def escaped? :
    Char → Option Char
  | '"' => some '"'
  | '\\' => some '\\'
  | '/' => some '/'
  | 'b' => some '\x08'
  | 'f' => some '\x0c'
  | 'n' => some '\n'
  | 'r' => some '\r'
  | 't' => some '\t'
  | _ => none

/-- Read an escape behind its backslash. -/
def readEscape :
    List Char → Option (List Char × List Char)
  | [] => none
  | letter :: rest =>
      if letter = 'u' then
        readScalar rest
      else
        (escaped? letter).map fun meant => ([meant], rest)

/-- Control characters may not stand in a string. -/
def isControl
    (letter : Char) : Bool :=
  letter.toNat < 0x20

/-- Read a string behind its opening quote. -/
def readChars :
    Nat → List Char → Option (List Char × List Char)
  | 0, _ => none
  | _, [] => none
  | fuel + 1, letter :: text =>
      if letter = '"' then
        some ([], text)
      else if letter = '\\' then do
        let (meant, rest) ← readEscape text
        let (letters, rest) ← readChars fuel rest
        some (meant ++ letters, rest)
      else if isControl letter then
        none
      else do
        let (letters, rest) ← readChars fuel text
        some (letter :: letters, rest)

/-- Read a string. -/
def readString
    (text : List Char) : Option (List Char × List Char) := do
  let text ← expect '"' text
  readChars text.length text

/-- Read at least one digit. -/
def readDigits
    (text : List Char) : Option (List Char × List Char) :=
  if (text.takeWhile Char.isDigit).isEmpty then
    none
  else
    some (text.takeWhile Char.isDigit, text.dropWhile Char.isDigit)

/-- Read an optional character. -/
def readOptional
    (allowed : Char → Bool) :
    List Char → List Char × List Char
  | [] => ([], [])
  | letter :: rest =>
      if allowed letter then ([letter], rest) else ([], letter :: rest)

/-- Read the whole part of a number: a zero has no digit behind it. -/
def readWhole
    (text : List Char) : Option (List Char × List Char) :=
  match readOptional (· = '0') text with
  | ([], rest) => readDigits rest
  | zero => some zero

/-- Read the fraction of a number. -/
def readFraction
    (text : List Char) : Option (List Char × List Char) :=
  match readOptional (· = '.') text with
  | ([], rest) => some ([], rest)
  | (point, rest) => do
      let (digits, rest) ← readDigits rest
      some (point ++ digits, rest)

/-- Read the exponent of a number. -/
def readExponent
    (text : List Char) : Option (List Char × List Char) :=
  match readOptional (fun letter => letter = 'e' || letter = 'E') text with
  | ([], rest) => some ([], rest)
  | (mark, rest) => do
      let (sign, rest) :=
        readOptional (fun letter => letter = '+' || letter = '-') rest
      let (digits, rest) ← readDigits rest
      some (mark ++ sign ++ digits, rest)

/-- Read a number as it is written. -/
def readNumber
    (text : List Char) : Option (List Char × List Char) := do
  let (sign, rest) := readOptional (· = '-') text
  let (whole, rest) ← readWhole rest
  let (fraction, rest) ← readFraction rest
  let (exponent, rest) ← readExponent rest
  some (sign ++ whole ++ fraction ++ exponent, rest)

/-- Read one of the three words. -/
def readWord
    (text : List Char) : Option (Json × List Char) :=
  if "null".toList.isPrefixOf text then
    some (null, text.drop 4)
  else if "true".toList.isPrefixOf text then
    some (bool true, text.drop 4)
  else if "false".toList.isPrefixOf text then
    some (bool false, text.drop 5)
  else
    none

mutual

/-- Read a value; the fuel bounds the number of values and their nesting. -/
def readValue :
    Nat → List Char → Option (Json × List Char)
  | 0, _ => none
  | _, [] => none
  | fuel + 1, letter :: text =>
      if letter = '"' then do
        let (letters, rest) ← readString (letter :: text)
        some (string letters, rest)
      else if letter = '[' then
        match expect ']' (skipBlanks text) with
        | some rest => some (array [], rest)
        | none => do
            let (items, rest) ← readItems fuel (skipBlanks text)
            some (array items, rest)
      else if letter = '{' then
        match expect '}' (skipBlanks text) with
        | some rest => some (object [], rest)
        | none => do
            let (members, rest) ← readMembers fuel (skipBlanks text)
            some (object members, rest)
      else if letter = '-' ∨ letter.isDigit then do
        let (literal, rest) ← readNumber (letter :: text)
        some (number literal, rest)
      else
        readWord (letter :: text)

/-- Read the items of an array and the bracket behind them. -/
def readItems :
    Nat → List Char → Option (List Json × List Char)
  | 0, _ => none
  | fuel + 1, text => do
      let (item, rest) ← readValue fuel text
      match expect ',' (skipBlanks rest) with
      | some rest => do
          let (items, rest) ← readItems fuel (skipBlanks rest)
          some (item :: items, rest)
      | none => do
          let rest ← expect ']' (skipBlanks rest)
          some ([item], rest)

/-- Read the members of an object and the brace behind them. -/
def readMembers :
    Nat → List Char → Option (List (List Char × Json) × List Char)
  | 0, _ => none
  | fuel + 1, text => do
      let (name, rest) ← readString text
      let rest ← expect ':' (skipBlanks rest)
      let (value, rest) ← readValue fuel (skipBlanks rest)
      match expect ',' (skipBlanks rest) with
      | some rest => do
          let (members, rest) ← readMembers fuel (skipBlanks rest)
          some ((name, value) :: members, rest)
      | none => do
          let rest ← expect '}' (skipBlanks rest)
          some ([(name, value)], rest)

end

/-- Read a text that is one value with blanks around it. -/
def read
    (text : List Char) : Option Json :=
  match readValue (text.length + 1) (skipBlanks text) with
  | some (value, rest) =>
      if (skipBlanks rest).isEmpty then some value else none
  | none => none

example :
    read ['[', '1', ',', ' ', '[', ']', ']'] =
      some (array [number ['1'], array []]) := by
  rfl

end Json

end TsnGen
