import ItemTable.Number.Natural
import ItemTable.Text.Split

/-!
# Document paths

A path names a place in an item: an attribute, then fields of maps and indexes
of lists.  Its display form separates names with dots and puts indexes in
brackets, as in `info.tags[0]`.

`Path.parse` reads every text: a segment whose brackets do not hold indexes is
a name as it stands.
-/

namespace ItemTable

/-- A step of a path. -/
inductive PathElement where
  | attribute (name : String)
  | index (position : Nat)
deriving DecidableEq

/-- A document path. -/
structure Path where
  elements : List PathElement
deriving DecidableEq

namespace Path

/-- Indexes are below this bound. -/
def indexBound : Nat :=
  twoTo 64

/-- The index that a text denotes: decimal digits, perhaps behind a plus sign. -/
def readIndex? (text : List Char) : Option Nat :=
  let digits := match text with
    | '+' :: digits => digits
    | digits => digits
  if digits.isEmpty || !digits.all Char.isDigit then
    none
  else
    let position := Nat.ofDigitChars 10 digits 0
    if position < indexBound then some position else none

/-- The indexes in brackets that make up a text; `fuel` is at least its length. -/
def readIndexes? : Nat → List Char → Option (List Nat)
  | _, [] => some []
  | 0, _ => none
  | fuel + 1, '[' :: rest =>
      match rest.dropWhile (· != ']') with
      | [] => none
      | _ :: behind => do
          let position ← readIndex? (rest.takeWhile (· != ']'))
          return position :: (← readIndexes? fuel behind)
  | _, _ => none

/-- The elements of one segment of a path. -/
def parseSegment (segment : List Char) : List PathElement :=
  let name := segment.takeWhile (· != '[')
  let brackets := segment.dropWhile (· != '[')
  match readIndexes? brackets.length brackets with
  | some positions =>
      if name.isEmpty && !brackets.isEmpty then
        [.attribute (String.ofList segment)]
      else
        .attribute (String.ofList name) :: positions.map .index
  | none => [.attribute (String.ofList segment)]

/-- The path that a text names. -/
def parse (text : String) : Path :=
  ⟨(Text.split '.' text.toList).flatMap parseSegment⟩

/-- An element behind others. -/
def displayElement : PathElement → List Char
  | .attribute name => '.' :: name.toList
  | .index position => '[' :: (Nat.toDigits 10 position ++ [']'])

/-- The display form of a path. -/
def display (path : Path) : String :=
  String.ofList <| match path.elements with
    | [] => []
    | .attribute name :: elements => name.toList ++ elements.flatMap displayElement
    | elements => elements.flatMap displayElement

/-- The name of the attribute that the path begins with. -/
def root? (path : Path) : Option String :=
  match path.elements with
  | .attribute name :: _ => some name
  | _ => none

/-- Whether the path names an attribute of the item itself. -/
def isTopLevel (path : Path) : Bool :=
  match path.elements with
  | [.attribute _] => true
  | _ => false

end Path

end ItemTable
