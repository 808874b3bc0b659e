import ItemTable.Number.Numeral
import ItemTable.Proofs.Expression.Scanning
import ItemTable.Proofs.Number.Nearest

/-!
# Texts of decimals

A decimal is written as an optional sign, digits with an optional point among them, and an
optional power of ten.  It denotes the number that its digits say, and that is what it is
read as.
-/

namespace ItemTable

/-- What stands before some digits. -/
inductive Sign where
  | none
  | plus
  | minus
deriving DecidableEq

namespace Sign

def chars : Sign → List Char
  | none => []
  | plus => ['+']
  | minus => ['-']

def isNegative : Sign → Bool
  | minus => true
  | _ => false

/-- A number with the sign before it. -/
def apply {α : Type} [Neg α] (sign : Sign) (number : α) : α :=
  if sign.isNegative then -number else number

end Sign

/-- Some digits, perhaps none. -/
abbrev Digits :=
  { digits : List Char // ∀ char ∈ digits, char.isDigit }

/-- The number that digits denote, which is zero if there are none. -/
def Digits.value (digits : Digits) : Nat :=
  Nat.ofDigitChars 10 digits.1 0

/-- The power of ten behind a decimal: a mark, a sign and digits. -/
structure PowerText where
  mark : Char
  isMark : mark = 'e' ∨ mark = 'E'
  sign : Sign
  digits : Digits
  nonempty : digits.1 ≠ []

namespace PowerText

def chars (power : PowerText) : List Char :=
  power.mark :: (power.sign.chars ++ power.digits.1)

def value (power : PowerText) : Int :=
  power.sign.apply (power.digits.value : Int)

end PowerText

/-- The parts of a decimal.  Digits may stand on either side of the point, and some do. -/
structure DecimalText where
  sign : Sign
  whole : Digits
  /-- The digits behind the point, if there is a point. -/
  fraction : Option Digits
  power : Option PowerText
  nonempty : whole.1 ≠ [] ∨ ∃ digits ∈ fraction, digits.1 ≠ []

namespace DecimalText

variable (decimal : DecimalText)

/-- The digits behind the point, which are none if there is no point. -/
def behind : Digits :=
  decimal.fraction.getD ⟨[], nofun⟩

/-- The power of ten, which is zero if none is written. -/
def exponent : Int :=
  (decimal.power.map PowerText.value).getD 0

/-- The point and the digits behind it. -/
def fractionChars : List Char :=
  match decimal.fraction with
  | none => []
  | some digits => '.' :: digits.1

def powerChars : List Char :=
  match decimal.power with
  | none => []
  | some power => power.chars

/-- The characters behind the sign. -/
def body : List Char :=
  decimal.whole.1 ++ (decimal.fractionChars ++ decimal.powerChars)

def text : String :=
  String.ofList (decimal.sign.chars ++ decimal.body)

/-- The number that the decimal denotes. -/
def value : ℚ :=
  decimal.sign.apply
    ((decimal.whole.value + decimal.behind.value / 10 ^ decimal.behind.1.length) *
      10 ^ decimal.exponent)

end DecimalText

/-! ## Reading -/

theorem isDigit_ne
    {char other : Char}
    (digit : char.isDigit)
    (no : other.isDigit = false) :
    char ≠ other := by
  rintro rfl
  rw [no] at digit
  cases digit

theorem isDigit_iff_toNat (char : Char) :
    char.isDigit ↔ 48 ≤ char.toNat ∧ char.toNat ≤ 57 := by
  rw [Char.isDigit]
  simp [UInt32.le_iff_toNat_le]

theorem toLower_of_isDigit
    {char : Char}
    (digit : char.isDigit) :
    char.toLower = char := by
  rw [isDigit_iff_toNat] at digit
  refine dif_neg ?_
  rintro ⟨upper, -⟩
  have code := UInt32.le_iff_toNat_le.mp upper
  simp only [Char.toNat_val] at code
  have first : 'A'.toNat = 65 := rfl
  omega

theorem isBlank_of_isDigit
    {char : Char}
    (digit : char.isDigit) :
    Text.isBlank char = false := by
  rw [isDigit_iff_toNat] at digit
  simp [Text.isBlank]
  omega

theorem Text.trim_of_isBlank
    {text : List Char}
    (blankFree : ∀ char ∈ text, isBlank char = false) :
    trim text = text := by
  have kept {text : List Char} (blankFree : ∀ char ∈ text, isBlank char = false) :
      text.dropWhile isBlank = text := by
    cases text with
    | nil => rfl
    | cons first rest => exact List.dropWhile_cons_of_neg (by simp [blankFree])
  rw [trim, kept blankFree, kept (by simpa using blankFree), List.reverse_reverse]

namespace Numeral

theorem readExponent_chars (power : PowerText) :
    readExponent power.chars = some power.value := by
  rcases power with ⟨mark, isMark, sign, ⟨digits, areDigits⟩, nonempty⟩
  change digits ≠ [] at nonempty
  have isWritten : (mark != 'e' && mark != 'E') = false := by
    rcases isMark with rfl | rfl <;> rfl
  have all : digits.all Char.isDigit := List.all_eq_true.mpr areDigits
  rcases List.exists_cons_of_ne_nil nonempty with ⟨first, others, rfl⟩
  have noMinus : first ≠ '-' := isDigit_ne (areDigits first List.mem_cons_self) rfl
  have noPlus : first ≠ '+' := isDigit_ne (areDigits first List.mem_cons_self) rfl
  cases sign <;>
    simp [PowerText.chars, PowerText.value, readExponent, isWritten, all, noMinus, noPlus,
      Sign.chars, Sign.apply, Sign.isNegative, Digits.value]

end Numeral

namespace DecimalText

variable (decimal : DecimalText)

theorem readExponent_powerChars :
    Numeral.readExponent decimal.powerChars = some decimal.exponent := by
  rw [powerChars, exponent]
  cases decimal.power with
  | none => rfl
  | some power => exact Numeral.readExponent_chars power

/-- No digit and no point begins a power of ten. -/
theorem head?_powerChars :
    decimal.powerChars.head?.any Char.isDigit = false ∧ decimal.powerChars.head? ≠ some '.' := by
  rw [powerChars]
  cases decimal.power with
  | none => exact ⟨rfl, nofun⟩
  | some power =>
      rcases power with ⟨mark, rfl | rfl, sign, digits, nonempty⟩
      · exact ⟨rfl, by simp [PowerText.chars]⟩
      · exact ⟨rfl, by simp [PowerText.chars]⟩

theorem readDecimal_body (negative : Bool) :
    Numeral.readDecimal negative decimal.body =
      some (.decimal negative (Nat.ofDigitChars 10 (decimal.whole.1 ++ decimal.behind.1) 0)
        (decimal.exponent - decimal.behind.1.length)) := by
  have readsPower := decimal.readExponent_powerChars
  rcases decimal.head?_powerChars with ⟨ends, noPoint⟩
  have nonempty := decimal.nonempty
  rw [Numeral.readDecimal, body, fractionChars, behind]
  cases written : decimal.fraction with
  | none =>
      rcases Text.takeWhile_append_of_ends decimal.whole.2 ends with ⟨taken, dropped⟩
      have some : decimal.whole.1 ≠ [] := by simpa [written] using nonempty
      rw [List.nil_append, taken, dropped]
      cases rest : decimal.powerChars with
      | nil =>
          rw [rest] at readsPower
          simp [some, readsPower]
      | cons first others =>
          rw [rest] at readsPower noPoint
          have isOther : first ≠ '.' := by simpa using noPoint
          simp [some, readsPower, isOther]
  | some digits =>
      rcases Text.takeWhile_append_of_ends digits.2 ends with ⟨takenBehind, droppedBehind⟩
      have endsAtPoint : ('.' :: (digits.1 ++ decimal.powerChars)).head?.any Char.isDigit = false :=
        rfl
      rcases Text.takeWhile_append_of_ends decimal.whole.2 endsAtPoint with ⟨taken, dropped⟩
      have digit : decimal.whole.1 = [] → digits.1 ≠ [] := by
        simpa [written, or_iff_not_imp_left] using nonempty
      rw [List.cons_append, taken, dropped]
      simpa [takenBehind, droppedBehind, readsPower] using digit

/-- A digit or the point comes first behind the sign. -/
theorem body_eq_cons :
    ∃ first rest, decimal.body = first :: rest ∧ (first.isDigit ∨ first = '.') := by
  rw [body]
  rcases whole : decimal.whole with ⟨digits, areDigits⟩
  cases digits with
  | cons first others =>
      exact ⟨first, _, rfl, .inl (areDigits first List.mem_cons_self)⟩
  | nil =>
      rcases decimal.nonempty with some | ⟨digits, written, -⟩
      · exact absurd (congrArg Subtype.val whole) some
      · rw [fractionChars, Option.mem_def.mp written]
        exact ⟨'.', _, rfl, .inr rfl⟩

theorem readUnsigned_body (negative : Bool) :
    Numeral.readUnsigned negative decimal.body = Numeral.readDecimal negative decimal.body := by
  rcases decimal.body_eq_cons with ⟨first, rest, isBody, shape⟩
  have lower : first.toLower = first := by
    rcases shape with digit | rfl
    · exact toLower_of_isDigit digit
    · rfl
  have noLetter : first ≠ 'i' ∧ first ≠ 'n' := by
    rcases shape with digit | rfl
    · exact ⟨isDigit_ne digit rfl, isDigit_ne digit rfl⟩
    · decide
  have noWord (word : String)
      (begins : word.toList.head? = some 'i' ∨ word.toList.head? = some 'n') :
      String.ofList (decimal.body.map Char.toLower) ≠ word := by
    rintro rfl
    simp [isBody, lower, noLetter] at begins
  rw [Numeral.readUnsigned, if_neg (by simp [noWord]), if_neg (noWord "nan" (.inr rfl))]

theorem isBlank_of_mem_text
    {char : Char}
    (member : char ∈ decimal.text.toList) :
    Text.isBlank char = false := by
  have ofSign {sign : Sign} (member : char ∈ sign.chars) : Text.isBlank char = false := by
    cases sign <;> simp only [Sign.chars, List.mem_singleton, List.not_mem_nil] at member <;>
      subst member <;> rfl
  have ofDigits {digits : Digits} (member : char ∈ digits.1) : Text.isBlank char = false :=
    isBlank_of_isDigit (digits.2 char member)
  rw [text, String.toList_ofList, body, List.mem_append, List.mem_append, List.mem_append,
    fractionChars, powerChars] at member
  rcases member with inSign | inWhole | inFraction | inPower
  · exact ofSign inSign
  · exact ofDigits inWhole
  · split at inFraction
    · cases inFraction
    · rcases List.mem_cons.mp inFraction with rfl | inDigits
      · rfl
      · exact ofDigits inDigits
  · split at inPower
    · cases inPower
    · rename_i power _
      rcases List.mem_cons.mp inPower with rfl | inExponent
      · rcases power.isMark with isMark | isMark <;> rw [isMark] <;> rfl
      · rcases List.mem_append.mp inExponent with inSign | inDigits
        · exact ofSign inSign
        · exact ofDigits inDigits

/-- A decimal is read as its parts say. -/
theorem read_text :
    Numeral.read (Text.trim decimal.text.toList) =
      some (.decimal decimal.sign.isNegative
        (Nat.ofDigitChars 10 (decimal.whole.1 ++ decimal.behind.1) 0)
        (decimal.exponent - decimal.behind.1.length)) := by
  rw [Text.trim_of_isBlank fun _ => decimal.isBlank_of_mem_text, ← readDecimal_body,
    ← readUnsigned_body, text, String.toList_ofList]
  cases decimal.sign with
  | plus | minus => rfl
  | none =>
      rcases decimal.body_eq_cons with ⟨first, rest, isBody, shape⟩
      have noSign : first ≠ '-' ∧ first ≠ '+' := by
        rcases shape with digit | rfl
        · exact ⟨isDigit_ne digit rfl, isDigit_ne digit rfl⟩
        · decide
      rw [Sign.chars, List.nil_append, isBody]
      simp [Numeral.read, noSign, Sign.isNegative]

/-! ## Values -/

theorem value_eq :
    decimal.value =
      Numeral.decimalValue decimal.sign.isNegative
        (Nat.ofDigitChars 10 (decimal.whole.1 ++ decimal.behind.1) 0)
        (decimal.exponent - decimal.behind.1.length) := by
  have digits : Nat.ofDigitChars 10 (decimal.whole.1 ++ decimal.behind.1) 0 =
      10 ^ decimal.behind.1.length * decimal.whole.value + decimal.behind.value := by
    rw [Nat.ofDigitChars_append, Nat.ofDigitChars_eq_ofDigitChars_zero, Digits.value, Digits.value]
  have ten : (10 : ℚ) ≠ 0 := by norm_num
  rw [value, Numeral.decimalValue, digits, zpow_sub₀ ten, zpow_natCast, Sign.apply]
  push_cast
  split <;> field_simp

/-- The text of a decimal is rounded to the number nearest to what it denotes. -/
theorem signed_ofText? :
    (Binary64.ofText? decimal.text).map Binary64.signed =
      some (Binary64.nearest decimal.value) := by
  rw [Binary64.ofText?, read_text, Option.map_some, Option.map_some, Numeral.signed_toBinary64,
    value_eq]

/-! ## Natural numbers -/

/-- The digits of a natural number, and nothing else. -/
def ofNat (number : Nat) : DecimalText where
  sign := .none
  whole := ⟨Nat.toDigits 10 number, fun _ member =>
    Nat.isDigit_of_mem_toDigits (by decide) (by decide) member⟩
  fraction := none
  power := none
  nonempty := .inl Nat.toDigits_ne_nil

@[simp]
theorem value_ofNat (number : Nat) : (ofNat number).value = number := by
  simp [value, ofNat, behind, exponent, Sign.apply, Sign.isNegative, Digits.value,
    Nat.ofDigitChars_ten_toDigits]

end DecimalText

end ItemTable
