import ItemTable.Number.Shortest

/-!
# JSON documents

The documents that requests and replies travel in.  The members of an object
keep their order, and a name may occur twice: what a repeated name means is
decided where a document is read as a value.
-/

namespace ItemTable

/-- A number of a document: an integer of 64 bits, or a binary64 number. -/
inductive Json.Number where
  | integer (value : Int)
  | real (value : Binary64)
deriving DecidableEq

/-- A JSON document. -/
inductive Json where
  | null
  | bool (value : Bool)
  | number (value : Json.Number)
  | string (text : String)
  | array (items : List Json)
  | object (members : List (String × Json))

namespace Json

instance : Inhabited Json := ⟨null⟩

/-- The document of an integer. -/
def ofInt (value : Int) : Json :=
  number (.integer value)

/-- The document of a number of things. -/
def ofNat (value : Nat) : Json :=
  ofInt value

/-- The member of an object for an optional value. -/
def optionalMember
    {α : Type}
    (name : String)
    (write : α → Json) :
    Option α → List (String × Json)
  | .none => []
  | .some value => [(name, write value)]

/-- What kind of document it is, in the words of error messages. -/
def kind : Json → String
  | null => "null"
  | bool _ => "boolean"
  | number _ => "number"
  | string _ => "string"
  | array _ => "array"
  | object _ => "object"

/-! ## Written form -/

/-- The four hexadecimal digits of a code below 65536. -/
def hexadecimal (code : Nat) : List Char :=
  [code / 4096, code / 256, code / 16, code].map fun place => Nat.digitChar (place % 16)

/-- A character inside quotes: quotes, backslashes and controls are escaped, the
controls that have a letter of their own by that letter. -/
def escape : Char → List Char
  | '"' => ['\\', '"']
  | '\\' => ['\\', '\\']
  | '\x08' => ['\\', 'b']
  | '\x0c' => ['\\', 'f']
  | '\n' => ['\\', 'n']
  | '\r' => ['\\', 'r']
  | '\t' => ['\\', 't']
  | char =>
      if char.toNat < 0x20 then
        '\\' :: 'u' :: hexadecimal char.toNat
      else
        [char]

/-- A text between quotes. -/
def quote (text : String) : String :=
  String.ofList ('"' :: (text.toList.flatMap escape ++ ['"']))

/-- The written form of a finite number, which has a decimal point even if it is
an integer. -/
def renderReal (value : Binary64) : String :=
  let text := value.text
  if text.toList.contains '.' then text else text ++ ".0"

/-- The written form of a number; only finite numbers have one. -/
def Number.render : Number → String
  | integer value => toString value
  | real value => if value.isFinite then renderReal value else "null"

mutual

/-- The written form of a document, without blanks. -/
def render : Json → String
  | null => "null"
  | bool value => if value then "true" else "false"
  | number value => value.render
  | string text => quote text
  | array items => "[" ++ renderItems items ++ "]"
  | object members => "\x7b" ++ renderMembers members ++ "\x7d"

/-- The items of an array, with commas between them. -/
def renderItems : List Json → String
  | [] => ""
  | [item] => render item
  | item :: items => render item ++ "," ++ renderItems items

/-- The members of an object, with commas between them. -/
def renderMembers : List (String × Json) → String
  | [] => ""
  | [(name, value)] => quote name ++ ":" ++ render value
  | (name, value) :: members =>
      quote name ++ ":" ++ render value ++ "," ++ renderMembers members

end

end Json

end ItemTable
