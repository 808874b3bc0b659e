/-!
# Blank and word characters

The character classes that the text formats of an item table agree on.  Names
and numbers may stand between blanks, which are all characters with the
White_Space property; expressions are spread out with ASCII blanks only, and
their words hold ASCII letters, digits and underscores.
-/

namespace ItemTable.Text

/-- A character with the White_Space property. -/
def isBlank (char : Char) : Bool :=
  let code := char.toNat
  (9 ≤ code && code ≤ 13) || code == 0x20 || code == 0x85 || code == 0xA0 ||
    code == 0x1680 || (0x2000 ≤ code && code ≤ 0x200A) || code == 0x2028 ||
    code == 0x2029 || code == 0x202F || code == 0x205F || code == 0x3000

/-- A space, tab, line feed, form feed or carriage return. -/
def isAsciiBlank (char : Char) : Bool :=
  char == ' ' || char == '\t' || char == '\n' || char == '\x0c' || char == '\r'

/-- A character that can begin a word: an ASCII letter or an underscore. -/
def isWordStart (char : Char) : Bool :=
  char.isAlpha || char == '_'

/-- A character that can stand in a word: a letter, a digit or an underscore. -/
def isWordChar (char : Char) : Bool :=
  char.isAlphanum || char == '_'

/-- Drop the blanks at both ends. -/
def trim (text : List Char) : List Char :=
  ((text.dropWhile isBlank).reverse.dropWhile isBlank).reverse

end ItemTable.Text
