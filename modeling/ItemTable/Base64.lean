/-!
# Base64

Binary values travel as base64 with the standard alphabet.  The last group of
an encoded text is padded, and the bits that it does not use are zero, so every
sequence of bytes has exactly one encoded text.
-/

namespace ItemTable.Base64

/-- The characters for the values below 64. -/
def alphabet : List Char :=
  "ABCDEFGHIJKLMNOPQRSTUVWXYZabcdefghijklmnopqrstuvwxyz0123456789+/".toList

/-- The character for a value below 64. -/
def digit (value : Nat) : Char :=
  alphabet.getD value '='

/-- The value of a character of the alphabet. -/
def value? (char : Char) : Option Nat :=
  alphabet.idxOf? char

/-- Three bytes become four characters, one or two at the end are padded. -/
def encode : List UInt8 → List Char
  | [] => []
  | [a] =>
      let bits := a.toNat * 16
      [digit (bits / 64), digit (bits % 64), '=', '=']
  | [a, b] =>
      let bits := (a.toNat * 256 + b.toNat) * 4
      [digit (bits / 4096), digit (bits / 64 % 64), digit (bits % 64), '=']
  | a :: b :: c :: bytes =>
      let bits := (a.toNat * 256 + b.toNat) * 256 + c.toNat
      digit (bits / 262144) :: digit (bits / 4096 % 64) :: digit (bits / 64 % 64) ::
        digit (bits % 64) :: encode bytes

/-- The bytes of an encoded text; no other text has any. -/
def decode? : List Char → Option (List UInt8)
  | [] => some []
  | [a, b, '=', '='] => do
      let bits := (← value? a) * 64 + (← value? b)
      if bits % 16 = 0 then some [(bits / 16).toUInt8] else none
  | [a, b, c, '='] => do
      let bits := ((← value? a) * 64 + (← value? b)) * 64 + (← value? c)
      if bits % 4 = 0 then some [(bits / 1024).toUInt8, (bits / 4).toUInt8] else none
  | a :: b :: c :: d :: rest => do
      let bits := ((← value? a) * 64 + (← value? b)) * 64 + (← value? c)
      let bits := bits * 64 + (← value? d)
      let bytes ← decode? rest
      pure ((bits / 65536).toUInt8 :: (bits / 256).toUInt8 :: bits.toUInt8 :: bytes)
  | _ => none

end ItemTable.Base64
