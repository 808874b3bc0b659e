import ItemTable.Json.Basic
import ItemTable.Number.Natural
import ItemTable.Number.Numeral

/-!
# Drafts of JSON documents

A text is read from left to right, and the first problem counts: a member of
the wrong kind is reported even when the text breaks off behind it.  A `Draft`
is the document that a text holds as far as it could be read.  Where the text
breaks off stands a `Draft.cut`, or an array or object that is not closed.

`Draft.read` reads a text, `Draft.ofJson` is the draft of a whole document, and
`Draft.toJson?` gives the document back when nothing is missing.
-/

namespace ItemTable.Json

/-- A document as far as it could be read. -/
inductive Draft where
  | null
  | bool (value : Bool)
  | number (value : Number)
  /-- A quoted text; none if an escape in it is half a surrogate pair. -/
  | quoted (content : Option String)
  | array (items : List Draft) (closed : Bool)
  | object (members : List (Option String × Draft)) (closed : Bool)
  /-- Nothing could be read here. -/
  | cut

namespace Draft

instance : Inhabited Draft := ⟨cut⟩

/-! ## Whole documents -/

mutual

/-- The draft of a whole document. -/
def ofJson : Json → Draft
  | .null => null
  | .bool value => bool value
  | .number value => number value
  | .string content => quoted (some content)
  | .array items => array (ofItems items) true
  | .object members => object (ofMembers members) true

/-- The drafts of the items of an array. -/
def ofItems : List Json → List Draft
  | [] => []
  | item :: items => ofJson item :: ofItems items

/-- The drafts of the members of an object. -/
def ofMembers : List (String × Json) → List (Option String × Draft)
  | [] => []
  | (name, value) :: members => (some name, ofJson value) :: ofMembers members

end

mutual

/-- The document, if nothing of it is missing. -/
def toJson? : Draft → Option Json
  | null => some .null
  | bool value => some (.bool value)
  | number (.integer value) => some (.number (.integer value))
  | number (.real value) =>
      if value.isFinite then some (.number (.real value)) else none
  | quoted content => content.map .string
  | array items closed => if closed then (toItems? items).map .array else none
  | object members closed => if closed then (toMembers? members).map .object else none
  | cut => none

/-- The items, if nothing of them is missing. -/
def toItems? : List Draft → Option (List Json)
  | [] => some []
  | item :: items => do
      let item ← toJson? item
      let items ← toItems? items
      pure (item :: items)

/-- The members, if nothing of them is missing. -/
def toMembers? : List (Option String × Draft) → Option (List (String × Json))
  | [] => some []
  | (name, value) :: members => do
      let name ← name
      let value ← toJson? value
      let members ← toMembers? members
      pure ((name, value) :: members)

end

mutual

/-- Whether the text of this part is well formed, whatever it says. -/
def isWhole : Draft → Bool
  | array items closed => areWhole items && closed
  | object members closed => haveWhole members && closed
  | cut => false
  | _ => true

/-- Whether all items are well formed. -/
def areWhole : List Draft → Bool
  | [] => true
  | item :: items => isWhole item && areWhole items

/-- Whether the values of all members are well formed. -/
def haveWhole : List (Option String × Draft) → Bool
  | [] => true
  | (_, value) :: members => isWhole value && haveWhole members

end

/-! ## Reading -/

/-- Drop the blanks that may stand between tokens. -/
def skipBlanks (text : List Char) : List Char :=
  text.dropWhile fun char => char == ' ' || char == '\n' || char == '\t' || char == '\r'

/-- The value of a hexadecimal digit. -/
def hexValue? (char : Char) : Option Nat :=
  if char.isDigit then
    some (char.toNat - '0'.toNat)
  else if 'a' ≤ char && char ≤ 'f' then
    some (char.toNat - 'a'.toNat + 10)
  else if 'A' ≤ char && char ≤ 'F' then
    some (char.toNat - 'A'.toNat + 10)
  else
    none

/-- The value of four hexadecimal digits at the front. -/
def readUnit : List Char → Option (Nat × List Char)
  | a :: b :: c :: d :: rest => do
      let a ← hexValue? a
      let b ← hexValue? b
      let c ← hexValue? c
      let d ← hexValue? d
      pure (((a * 16 + b) * 16 + c) * 16 + d, rest)
  | _ => none

/-- The character that a backslash and this character stand for. -/
def unescape? : Char → Option Char
  | '"' => some '"'
  | '\\' => some '\\'
  | '/' => some '/'
  | 'b' => some '\x08'
  | 'f' => some '\x0c'
  | 'n' => some '\n'
  | 'r' => some '\r'
  | 't' => some '\t'
  | _ => none

/-- The content of a quoted text up to its closing quote, and what follows;
nothing if the text is malformed.  `fuel` is at least the length. -/
def readText : Nat → List Char → Option (Option (List Char) × List Char)
  | 0, _ => none
  | fuel + 1, text =>
      let put (char : Char) (rest : List Char) :=
        (readText fuel rest).map fun (content, rest) => (content.map (char :: ·), rest)
      match text with
      | [] => none
      | '"' :: rest => some (some [], rest)
      | '\\' :: 'u' :: rest =>
          match readUnit rest with
          | none => none
          | some (unit, rest) =>
              let alone (rest : List Char) :=
                (readText fuel rest).map fun (_, rest) => (none, rest)
              if unit < 0xD800 || 0xE000 ≤ unit then
                put (Char.ofNat unit) rest
              else if 0xDC00 ≤ unit then
                alone rest
              else
                match rest with
                | '\\' :: 'u' :: second =>
                    match readUnit second with
                    | some (low, rest) =>
                        if 0xDC00 ≤ low && low < 0xE000 then
                          put (Char.ofNat (0x10000 + (unit - 0xD800) * 0x400 + (low - 0xDC00)))
                            rest
                        else
                          alone ('\\' :: 'u' :: second)
                    | none => none
                | _ => alone rest
      | '\\' :: char :: rest => (unescape? char).bind fun char => put char rest
      | char :: rest => if char.toNat < 0x20 then none else put char rest

/-- A number with neither fraction nor exponent is an integer as far as 64 bits
reach; a negative zero is not. -/
def classify (negative : Bool) (digits : Nat) : Number :=
  if !negative && digits < twoTo 64 then
    .integer digits
  else if negative && digits != 0 && digits ≤ twoTo 63 then
    .integer (-(digits : Int))
  else
    .real (Numeral.decimal negative digits 0).toBinary64

/-- The digits at the front, at least one. -/
def readDigits (text : List Char) : Option (List Char × List Char) :=
  let digits := text.takeWhile Char.isDigit
  if digits.isEmpty then none else some (digits, text.dropWhile Char.isDigit)

/-- The digits behind the point, if there is one. -/
def readFraction : List Char → Option (List Char × List Char)
  | '.' :: rest => readDigits rest
  | rest => some ([], rest)

/-- The exponent, if there is one. -/
def readExponent : List Char → Option (Option Int × List Char)
  | mark :: rest =>
      if mark == 'e' || mark == 'E' then
        let (negative, rest) := match rest with
          | '-' :: rest => (true, rest)
          | '+' :: rest => (false, rest)
          | rest => (false, rest)
        (readDigits rest).map fun (digits, rest) =>
          let size : Int := Nat.ofDigitChars 10 digits 0
          (some (if negative then -size else size), rest)
      else
        some (none, mark :: rest)
  | [] => some (none, [])

/-- A number at the front of the text, and what follows it. -/
def readNumber (text : List Char) : Option (Number × List Char) := do
  let (negative, text) := match text with
    | '-' :: rest => (true, rest)
    | _ => (false, text)
  let (whole, rest) ← match text with
    | '0' :: rest => some (['0'], rest)
    | _ => readDigits text
  let (fraction, rest) ← readFraction rest
  let (exponent, rest) ← readExponent rest
  if fraction.isEmpty && exponent.isNone then
    pure (classify negative (Nat.ofDigitChars 10 whole 0), rest)
  else
    let numeral := Numeral.decimal negative (Nat.ofDigitChars 10 (whole ++ fraction) 0)
      (exponent.getD 0 - fraction.length)
    pure (.real numeral.toBinary64, rest)

mutual

/-- The value at the front of the text, and what follows unless the text breaks
off in it. -/
def readValue : Nat → List Char → Draft × Option (List Char)
  | 0, _ => (cut, none)
  | fuel + 1, text =>
      match skipBlanks text with
      | 'n' :: 'u' :: 'l' :: 'l' :: rest => (null, some rest)
      | 't' :: 'r' :: 'u' :: 'e' :: rest => (bool true, some rest)
      | 'f' :: 'a' :: 'l' :: 's' :: 'e' :: rest => (bool false, some rest)
      | '"' :: rest =>
          match readText (rest.length + 1) rest with
          | some (content, rest) => (quoted (content.map String.ofList), some rest)
          | none => (cut, none)
      | '[' :: rest =>
          match skipBlanks rest with
          | ']' :: rest => (array [] true, some rest)
          | rest =>
              let (items, rest) := readItems fuel rest
              (array items rest.isSome, rest)
      | '\x7b' :: rest =>
          match skipBlanks rest with
          | '\x7d' :: rest => (object [] true, some rest)
          | rest =>
              let (members, rest) := readMembers fuel rest
              (object members rest.isSome, rest)
      | text =>
          match readNumber text with
          | some (value, rest) => (number value, some rest)
          | none => (cut, none)

/-- The items of an array up to its end. -/
def readItems : Nat → List Char → List Draft × Option (List Char)
  | 0, _ => ([], none)
  | fuel + 1, text =>
      match readValue fuel text with
      | (item, none) => ([item], none)
      | (item, some rest) =>
          match skipBlanks rest with
          | ']' :: rest => ([item], some rest)
          | ',' :: rest =>
              let (items, rest) := readItems fuel rest
              (item :: items, rest)
          | _ => ([item], none)

/-- The members of an object up to its end.  A name is read before the colon
behind it. -/
def readMembers : Nat → List Char → List (Option String × Draft) × Option (List Char)
  | 0, _ => ([], none)
  | fuel + 1, text =>
      match skipBlanks text with
      | '"' :: rest =>
          match readText (rest.length + 1) rest with
          | none => ([], none)
          | some (name, rest) =>
              let name := name.map String.ofList
              match skipBlanks rest with
              | ':' :: rest =>
                  match readValue fuel rest with
                  | (value, none) => ([(name, value)], none)
                  | (value, some rest) =>
                      match skipBlanks rest with
                      | '\x7d' :: rest => ([(name, value)], some rest)
                      | ',' :: rest =>
                          let (members, rest) := readMembers fuel rest
                          ((name, value) :: members, rest)
                      | _ => ([(name, value)], none)
              | _ => ([(name, cut)], none)
      | _ => ([], none)

end

/-- The draft that a text holds, and whether the text ends behind it. -/
def read (text : String) : Draft × Bool :=
  match readValue (2 * text.length + 2) text.toList with
  | (draft, none) => (draft, false)
  | (draft, some rest) => (draft, (skipBlanks rest).isEmpty)

end Draft

/-- The document that a text holds, if it is one. -/
def parse? (text : String) : Option Json :=
  match Draft.read text with
  | (draft, true) => draft.toJson?
  | (_, false) => none

end ItemTable.Json
