import ItemTable.Json.Draft

/-!
# Raw JSON documents

A raw document is read without looking closer at anything than its shape needs.
Texts and names are kept as they stand between their quotes, and what the
escapes in them mean is asked only where a text is wanted.  Numbers may have
zeros in front and nothing behind the point, and they are rounded at once.

`Raw.parse?` reads a whole text, and `Raw.unescape?` says what a text in it
means.
-/

namespace ItemTable.Json

/-- A document whose texts stand as they are written. -/
inductive Raw where
  | null
  | bool (value : Bool)
  | number (value : Binary64)
  | string (written : String)
  | array (items : List Raw)
  | object (members : List (String × Raw))

namespace Raw

/-- Whether the document is a null. -/
def isNull : Raw → Bool
  | null => true
  | _ => false

/-- What a text means; nothing if an escape in it is malformed. -/
def unescape? (written : String) : Option String :=
  match Draft.readText (written.length + 2) (written.toList ++ ['"']) with
  | some (some content, _) => some (String.ofList content)
  | _ => none

/-! ## Reading -/

/-- What is written up to the closing quote, and what follows it.  The character
behind a backslash never closes a text. -/
def readWritten : List Char → Option (List Char × List Char)
  | [] => none
  | '"' :: rest => some ([], rest)
  | '\\' :: char :: rest =>
      (readWritten rest).map fun (written, rest) => ('\\' :: char :: written, rest)
  | char :: rest =>
      if char.toNat < 0x20 then
        none
      else
        (readWritten rest).map fun (written, rest) => (char :: written, rest)

/-- Whether a number can begin with a character. -/
def isNumberStart (char : Char) : Bool :=
  char.isDigit || char == '-'

/-- Whether a character can stand in a number. -/
def isNumberChar (char : Char) : Bool :=
  isNumberStart char || char == '+' || char == '.' || char == 'e' || char == 'E'

/-- A number at the front of the text, and what follows it.  It is as long as its
characters reach, and an integer has no negative zero. -/
def readNumber (text : List Char) : Option (Binary64 × List Char) := do
  let written := text.takeWhile isNumberChar
  guard (written.head?.any isNumberStart)
  let value := (← Numeral.read written).toBinary64
  return (if written.all isNumberStart then value.unsignedZero else value,
    text.dropWhile isNumberChar)

mutual

/-- The value at the front of the text, and what follows it. -/
def readValue : Nat → List Char → Option (Raw × List Char)
  | 0, _ => none
  | fuel + 1, text =>
      match Draft.skipBlanks text with
      | 'n' :: 'u' :: 'l' :: 'l' :: rest => some (null, rest)
      | 't' :: 'r' :: 'u' :: 'e' :: rest => some (bool true, rest)
      | 'f' :: 'a' :: 'l' :: 's' :: 'e' :: rest => some (bool false, rest)
      | '"' :: rest =>
          (readWritten rest).map fun (written, rest) => (string (String.ofList written), rest)
      | '[' :: rest =>
          match Draft.skipBlanks rest with
          | ']' :: rest => some (array [], rest)
          | rest => (readItems fuel rest).map fun (items, rest) => (array items, rest)
      | '\x7b' :: rest =>
          match Draft.skipBlanks rest with
          | '\x7d' :: rest => some (object [], rest)
          | rest => (readMembers fuel rest).map fun (members, rest) => (object members, rest)
      | text => (readNumber text).map fun (value, rest) => (number value, rest)

/-- The items of an array up to its end. -/
def readItems : Nat → List Char → Option (List Raw × List Char)
  | 0, _ => none
  | fuel + 1, text => do
      let (item, rest) ← readValue fuel text
      match Draft.skipBlanks rest with
      | ']' :: rest => some ([item], rest)
      | ',' :: rest =>
          let (items, rest) ← readItems fuel rest
          some (item :: items, rest)
      | _ => none

/-- The members of an object up to its end. -/
def readMembers : Nat → List Char → Option (List (String × Raw) × List Char)
  | 0, _ => none
  | fuel + 1, text => do
      let '"' :: rest := Draft.skipBlanks text | none
      let (name, rest) ← readWritten rest
      let ':' :: rest := Draft.skipBlanks rest | none
      let (value, rest) ← readValue fuel rest
      let member := (String.ofList name, value)
      match Draft.skipBlanks rest with
      | '\x7d' :: rest => some ([member], rest)
      | ',' :: rest =>
          let (members, rest) ← readMembers fuel rest
          some (member :: members, rest)
      | _ => none

end

/-- The document that a text holds, if it is one. -/
def parse? (text : String) : Option Raw :=
  match readValue (2 * text.length + 2) text.toList with
  | some (document, rest) => if (Draft.skipBlanks rest).isEmpty then some document else none
  | none => none

end Raw

end ItemTable.Json
