import ItemTable.Base64

/-!
# Base64 is lossless

The bytes of an encoded text are the bytes that were encoded, and no other text has any.
-/

namespace ItemTable.Base64

/-! ## Digits -/

/-- The character of a value has that value, and it is no padding. -/
theorem value?_digit
    {value : Nat}
    (below : value < 64) :
    value? (digit value) = some value ∧ digit value ≠ '=' := by
  revert value
  decide +kernel

/-- A byte is found again in a number that ends in it. -/
theorem toUInt8_of_mod
    {number : Nat}
    {byte : UInt8}
    (ends : number % 256 = byte.toNat) :
    number.toUInt8 = byte := by
  apply UInt8.toNat_inj.mp
  simpa using ends

/-! ## Groups

`bits` is the number that the digits of a group make up. -/

section Groups

variable
  {a b c d bits : Nat}
  (belowA : a < 64)
  (belowB : b < 64)
  (belowC : c < 64)
  (belowD : d < 64)

include belowA belowB

/-- A group that is padded twice holds one byte. -/
theorem decode?_two
    (packed : bits = a * 64 + b)
    (unused : bits % 16 = 0) :
    decode? [digit a, digit b, '=', '='] = some [(bits / 16).toUInt8] := by
  rcases value?_digit belowA with ⟨ofA, -⟩
  rcases value?_digit belowB with ⟨ofB, -⟩
  subst packed
  simp [decode?, ofA, ofB, unused]

include belowC

/-- A group that is padded once holds two bytes. -/
theorem decode?_three
    (packed : bits = (a * 64 + b) * 64 + c)
    (unused : bits % 4 = 0) :
    decode? [digit a, digit b, digit c, '='] =
      some [(bits / 1024).toUInt8, (bits / 4).toUInt8] := by
  rcases value?_digit belowA with ⟨ofA, -⟩
  rcases value?_digit belowB with ⟨ofB, -⟩
  rcases value?_digit belowC with ⟨ofC, unpadded⟩
  subst packed
  rw [decode?]
  · simp [ofA, ofB, ofC, unused]
  · intro padded
    exact absurd padded unpadded

include belowD

/-- A group without padding holds three bytes. -/
theorem decode?_four
    (packed : bits = ((a * 64 + b) * 64 + c) * 64 + d)
    (rest : List Char) :
    decode? (digit a :: digit b :: digit c :: digit d :: rest) =
      (decode? rest).map fun bytes =>
        (bits / 65536).toUInt8 :: (bits / 256).toUInt8 :: bits.toUInt8 :: bytes := by
  rcases value?_digit belowA with ⟨ofA, -⟩
  rcases value?_digit belowB with ⟨ofB, -⟩
  rcases value?_digit belowC with ⟨ofC, -⟩
  rcases value?_digit belowD with ⟨ofD, unpadded⟩
  subst packed
  rw [decode?]
  · simp only [ofA, ofB, ofC, ofD, Option.bind_eq_bind, Option.bind_some]
    cases decode? rest <;> rfl
  · intro _ padded
    exact absurd padded unpadded
  · intro padded
    exact absurd padded unpadded

end Groups

/-- What is encoded is found again. -/
@[simp]
theorem decode?_encode (bytes : List UInt8) :
    decode? (encode bytes) = some bytes := by
  fun_induction encode bytes with
  | case1 => rfl
  | case2 a bits =>
      have ofA := a.toNat_lt
      have packed : bits = bits / 64 * 64 + bits % 64 := by omega
      have first : (bits / 16).toUInt8 = a := toUInt8_of_mod (by omega)
      rw [decode?_two (by omega) (by omega) packed (by omega), first]
  | case3 a b bits =>
      have ofA := a.toNat_lt
      have ofB := b.toNat_lt
      have packed : bits = (bits / 4096 * 64 + bits / 64 % 64) * 64 + bits % 64 := by omega
      have first : (bits / 1024).toUInt8 = a := toUInt8_of_mod (by omega)
      have second : (bits / 4).toUInt8 = b := toUInt8_of_mod (by omega)
      rw [decode?_three (by omega) (by omega) (by omega) packed (by omega), first, second]
  | case4 a b c bytes bits ih =>
      have ofA := a.toNat_lt
      have ofB := b.toNat_lt
      have ofC := c.toNat_lt
      have packed :
          bits =
            ((bits / 262144 * 64 + bits / 4096 % 64) * 64 + bits / 64 % 64) * 64 +
              bits % 64 := by
        omega
      have first : (bits / 65536).toUInt8 = a := toUInt8_of_mod (by omega)
      have second : (bits / 256).toUInt8 = b := toUInt8_of_mod (by omega)
      have third : bits.toUInt8 = c := toUInt8_of_mod (by omega)
      rw [decode?_four (by omega) (by omega) (by omega) (by omega) packed, ih,
        Option.map_some, first, second, third]

/-! ## Decoding -/

/-- A character with a value is the digit of that value. -/
theorem digit_of_value?
    {char : Char}
    {value : Nat}
    (found : value? char = some value) :
    value < 64 ∧ digit value = char := by
  rw [value?, List.idxOf?, List.findIdx?_eq_some_iff_getElem] at found
  rcases found with ⟨below, same, -⟩
  refine ⟨below, ?_⟩
  rw [digit, List.getD_eq_getElem?_getD, List.getElem?_eq_getElem below]
  exact beq_iff_eq.mp same

/-- Only an encoded text has bytes, and these are the bytes that it encodes. -/
theorem encode_of_decode?
    {text : List Char}
    {bytes : List UInt8}
    (decoded : decode? text = some bytes) :
    encode bytes = text := by
  have byte (number : Nat) : number.toUInt8.toNat = number % 256 := by simp
  fun_induction decode? text generalizing bytes with
  | case1 =>
      cases decoded
      rfl
  | case2 a b =>
      simp only [Option.bind_eq_bind, Option.bind_eq_some_iff] at decoded
      rcases decoded with ⟨x, ofA, y, ofB, packed⟩
      rcases digit_of_value? ofA with ⟨belowX, rfl⟩
      rcases digit_of_value? ofB with ⟨belowY, rfl⟩
      split at packed
      next unused =>
        cases packed
        have bits : (x * 64 + y) / 16 % 256 * 16 = x * 64 + y := by omega
        have first : (x * 64 + y) / 64 = x := by omega
        have second : (x * 64 + y) % 64 = y := by omega
        rw [encode, byte, bits, first, second]
      next => cases packed
  | case3 a b c =>
      simp only [Option.bind_eq_bind, Option.bind_eq_some_iff] at decoded
      rcases decoded with ⟨x, ofA, y, ofB, z, ofC, packed⟩
      rcases digit_of_value? ofA with ⟨belowX, rfl⟩
      rcases digit_of_value? ofB with ⟨belowY, rfl⟩
      rcases digit_of_value? ofC with ⟨belowZ, rfl⟩
      split at packed
      next unused =>
        cases packed
        generalize whole : (x * 64 + y) * 64 + z = number at unused ⊢
        have bits : (number / 1024 % 256 * 256 + number / 4 % 256) * 4 = number := by omega
        have first : number / 4096 = x := by omega
        have second : number / 64 % 64 = y := by omega
        have third : number % 64 = z := by omega
        rw [encode, byte, byte, bits, first, second, third]
      next => cases packed
  | case4 a b c d rest _ _ ih =>
      simp only [Option.bind_eq_bind, Option.bind_eq_some_iff] at decoded
      rcases decoded with ⟨x, ofA, y, ofB, z, ofC, w, ofD, others, behind, packed⟩
      rcases digit_of_value? ofA with ⟨belowX, rfl⟩
      rcases digit_of_value? ofB with ⟨belowY, rfl⟩
      rcases digit_of_value? ofC with ⟨belowZ, rfl⟩
      rcases digit_of_value? ofD with ⟨belowW, rfl⟩
      cases packed
      generalize whole : ((x * 64 + y) * 64 + z) * 64 + w = number
      have bits :
          (number / 65536 % 256 * 256 + number / 256 % 256) * 256 + number % 256 = number := by
        omega
      have first : number / 262144 = x := by omega
      have second : number / 4096 % 64 = y := by omega
      have third : number / 64 % 64 = z := by omega
      have fourth : number % 64 = w := by omega
      rw [encode, byte, byte, byte, bits, first, second, third, fourth, ih behind]
  | case5 => cases decoded

end ItemTable.Base64
