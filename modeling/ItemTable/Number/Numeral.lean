import ItemTable.Number.Binary64
import ItemTable.Number.Natural
import ItemTable.Text.Blank

/-!
# Numerals

The texts that are read as numbers: an optional sign, then the words `inf`,
`infinity` or `nan` in any case, or digits with an optional point and an
optional exponent, where at least one digit stands beside the point.

`Numeral.read` recovers what is written, exactly; `Numeral.toBinary64` rounds it.
-/

namespace ItemTable

/-- What a numeral denotes. -/
inductive Numeral where
  /-- Not a number. -/
  | nan (negative : Bool)
  | infinity (negative : Bool)
  /-- The coefficient times ten to the power of the exponent. -/
  | decimal (negative : Bool) (coefficient : Nat) (exponent : Int)
deriving DecidableEq

namespace Numeral

/-- The exponent part of a numeral: nothing, or `e`, a sign and digits. -/
def readExponent : List Char → Option Int
  | [] => some 0
  | mark :: rest =>
      if mark != 'e' && mark != 'E' then
        none
      else
        let (negative, digits) := match rest with
          | '-' :: digits => (true, digits)
          | '+' :: digits => (false, digits)
          | digits => (false, digits)
        if digits.isEmpty || !digits.all Char.isDigit then
          none
        else
          let size : Int := Nat.ofDigitChars 10 digits 0
          some (if negative then -size else size)

/-- A numeral without its sign, when it is made of digits. -/
def readDecimal (negative : Bool) (text : List Char) : Option Numeral :=
  let whole := text.takeWhile Char.isDigit
  let (fraction, rest) := match text.dropWhile Char.isDigit with
    | '.' :: rest => (rest.takeWhile Char.isDigit, rest.dropWhile Char.isDigit)
    | rest => ([], rest)
  if whole.isEmpty && fraction.isEmpty then
    none
  else
    (readExponent rest).map fun exponent =>
      decimal negative (Nat.ofDigitChars 10 (whole ++ fraction) 0)
        (exponent - fraction.length)

/-- A numeral without its sign. -/
def readUnsigned (negative : Bool) (text : List Char) : Option Numeral :=
  let word := String.ofList (text.map Char.toLower)
  if word = "inf" || word = "infinity" then
    some (infinity negative)
  else if word = "nan" then
    some (nan negative)
  else
    readDecimal negative text

/-- The numeral that the text is, if it is one. -/
def read : List Char → Option Numeral
  | '-' :: rest => readUnsigned true rest
  | '+' :: rest => readUnsigned false rest
  | text => readUnsigned false text

/-- The nearest binary64 number.  A decimal far outside the range is infinity
or zero without being written out. -/
def toBinary64 : Numeral → Binary64
  | nan negative => .nan negative
  | infinity negative => .infinity negative
  | decimal negative coefficient exponent =>
      let length : Int := (Nat.toDigits 10 coefficient).length
      if coefficient = 0 then
        ⟨negative, 0⟩
      else if 400 < length + exponent then
        .infinity negative
      else if length + exponent < -400 then
        ⟨negative, 0⟩
      else if 0 ≤ exponent then
        .ofRatio negative (coefficient * tenTo exponent.toNat) 1
      else
        .ofRatio negative coefficient (tenTo (-exponent).toNat)

end Numeral

/-- The number that a text between blanks denotes. -/
def Binary64.ofText? (text : String) : Option Binary64 :=
  (Numeral.read (Text.trim text.toList)).map Numeral.toBinary64

end ItemTable
