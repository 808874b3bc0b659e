import ItemTable.Proofs.Condition.Spelling
import ItemTable.Proofs.Expression.Scanning

/-!
# The tokens of spelled conditions

A condition that is spelled with marked words is scanned to the tokens that its
tree lists: a token for every sign and word, and one placeholder for every name
and literal.  Nothing that an attribute name or a literal holds is ever scanned.
-/

namespace ItemTable

/-! ## Tokens -/

namespace Path

/-- The tokens of the elements of a path behind the first ones. -/
def elementTokens (naming : Naming) : List PathElement → List Token
  | [] => []
  | .attribute name :: elements =>
      .dot :: .name (Text.unmarked (naming.name name)) :: elementTokens naming elements
  | .index position :: elements =>
      .openBracket :: .index position :: .closeBracket :: elementTokens naming elements

/-- The tokens of a path. -/
def tokens (naming : Naming) (path : Path) : List Token :=
  match path.elements with
  | .attribute name :: elements =>
      .name (Text.unmarked (naming.name name)) :: elementTokens naming elements
  | elements => elementTokens naming elements

/-- The tokens of paths with commas between them. -/
def tokensAll (naming : Naming) : List Path → List Token
  | [] => []
  | [path] => path.tokens naming
  | path :: paths => path.tokens naming ++ .comma :: tokensAll naming paths

end Path

namespace Operand

/-- The tokens of an operand. -/
def tokens (naming : Naming) : Operand → List Token
  | path place => place.tokens naming
  | value literal => [.value (Text.unmarked (naming.value literal))]
  | size place => .size :: .openParenthesis :: (place.tokens naming ++ [.closeParenthesis])

/-- The tokens of operands with commas between them. -/
def tokensAll (naming : Naming) : List Operand → List Token
  | [] => []
  | [operand] => operand.tokens naming
  | operand :: operands => operand.tokens naming ++ .comma :: tokensAll naming operands

end Operand

/-- The token of a connective. -/
def Connective.token : Connective → Token
  | and => .and
  | or => .or

/-- The tokens of a condition. -/
def Condition.tokens (naming : Naming) : Condition → List Token
  | compare left operator right =>
      .openParenthesis ::
        (left.tokens naming ++ .comparison operator ::
          (right.tokens naming ++ [.closeParenthesis]))
  | between value low high =>
      .openParenthesis ::
        (value.tokens naming ++ .between ::
          (low.tokens naming ++ .and :: (high.tokens naming ++ [.closeParenthesis])))
  | among value candidates =>
      .openParenthesis ::
        (value.tokens naming ++ .among :: .openParenthesis ::
          (Operand.tokensAll naming candidates ++ [.closeParenthesis, .closeParenthesis]))
  | joined connective left right =>
      .openParenthesis ::
        (left.tokens naming ++ connective.token ::
          (right.tokens naming ++ [.closeParenthesis]))
  | not inner => .openParenthesis :: .not :: (inner.tokens naming ++ [.closeParenthesis])
  | test predicate arguments =>
      .predicate predicate :: .openParenthesis ::
        (Operand.tokensAll naming arguments ++ [.closeParenthesis])

/-! ## Scanning -/

/-- The naming writes marked words for the given names and literals. -/
structure Naming.Marks
    (naming : Naming)
    (names : List String)
    (values : List AttributeValue) : Prop where
  name : ∀ name ∈ names, Text.isMarkedWord '#' (naming.name name)
  value : ∀ value ∈ values, Text.isMarkedWord ':' (naming.value value)

theorem Naming.Marks.mono
    {naming : Naming}
    {names fewerNames : List String}
    {values fewerValues : List AttributeValue}
    (marks : naming.Marks names values)
    (inNames : fewerNames ⊆ names)
    (inValues : fewerValues ⊆ values) :
    naming.Marks fewerNames fewerValues :=
  ⟨fun name member => marks.name name (inNames member),
    fun value member => marks.value value (inValues member)⟩

open Text

open Token (scan before scan_namePlaceholder scan_valuePlaceholder scan_index)

section

variable {naming : Naming}

/-- The elements behind the first ones lengthen no word before them. -/
theorem Path.endsWord_spellElements
    {elements : List PathElement}
    {rest : List Char}
    (ends : endsWord rest) :
    endsWord ((Path.spellElements naming elements).toList ++ rest) := by
  match elements with
  | [] => simpa [Path.spellElements] using ends
  | .attribute _ :: _ => simp [Path.spellElements, endsWord]; decide
  | .index _ :: _ => simp [Path.spellElements, endsWord]; decide

theorem Path.scan_spellElements
    {elements : List PathElement}
    {rest : List Char}
    (marks : naming.Marks (Path.names ⟨elements⟩) [])
    (bounded : Path.isBounded ⟨elements⟩)
    (ends : endsWord rest) :
    scan ((Path.spellElements naming elements).toList ++ rest) =
      before (Path.elementTokens naming elements) (scan rest) := by
  induction elements with
  | nil => simp [Path.spellElements, Path.elementTokens]
  | cons element elements ih =>
      cases element with
      | «attribute» name =>
          have others := ih (marks.mono (List.subset_cons_self _ _) (List.Subset.refl _))
            (by simpa [Path.isBounded] using bounded)
          have first := marks.name name List.mem_cons_self
          simp [Path.spellElements, Path.elementTokens, others,
            scan_namePlaceholder first (Path.endsWord_spellElements ends)]
      | index position =>
          obtain ⟨small, fewer⟩ :
              position < Path.indexBound ∧ Path.isBounded ⟨elements⟩ := by
            simpa [Path.isBounded] using bounded
          simp [Path.spellElements, Path.elementTokens, scan_index small, ih marks fewer]

theorem Path.scan_spell
    {path : Path}
    {rest : List Char}
    (marks : naming.Marks path.names [])
    (bounded : path.isBounded)
    (ends : endsWord rest) :
    scan ((path.spell naming).toList ++ rest) =
      before (path.tokens naming) (scan rest) := by
  rcases path with ⟨elements⟩
  match elements with
  | [] => exact Path.scan_spellElements marks bounded ends
  | .index position :: elements => exact Path.scan_spellElements marks bounded ends
  | .attribute name :: elements =>
      have others := Path.scan_spellElements
        (marks.mono (List.subset_cons_self _ _) (List.Subset.refl _))
        (by simpa [Path.isBounded] using bounded) ends
      have first := marks.name name List.mem_cons_self
      simp [Path.spell, Path.tokens, others,
        scan_namePlaceholder first (Path.endsWord_spellElements ends)]

/-- An operand that is written with marked words and list indexes. -/
structure Operand.Scans (naming : Naming) (operand : Operand) : Prop where
  marks : naming.Marks operand.names operand.literals
  bounded : operand.path?.all Path.isBounded

/-- An operand is scanned to its tokens before a character that ends words. -/
theorem Operand.Scans.scan_spell
    {operand : Operand}
    (scans : operand.Scans naming)
    (char : Char)
    (ends : isWordChar char = false)
    (rest : List Char) :
    scan ((operand.spell naming).toList ++ char :: rest) =
      before (operand.tokens naming) (scan (char :: rest)) := by
  have endsHere : endsWord (char :: rest) := by simp [endsWord, ends]
  cases operand with
  | path place => exact Path.scan_spell scans.marks scans.bounded endsHere
  | value literal =>
      exact scan_valuePlaceholder (scans.marks.value literal List.mem_cons_self) endsHere
  | size place =>
      have inner (rest : List Char) :=
        Path.scan_spell scans.marks scans.bounded (show endsWord (')' :: rest) from rfl)
      simp [Operand.spell, Operand.tokens, inner]

/-- Operands with commas between them are scanned to their tokens, and so is the
parenthesis behind them. -/
theorem Operand.scan_spellAll
    {operands : List Operand}
    (scans : ∀ operand ∈ operands, operand.Scans naming)
    (rest : List Char) :
    scan ((Operand.spellAll naming operands).toList ++ ')' :: rest) =
      before (Operand.tokensAll naming operands ++ [.closeParenthesis]) (scan rest) := by
  induction operands with
  | nil => simp [Operand.spellAll, Operand.tokensAll]
  | cons operand operands ih =>
      have first := scans operand List.mem_cons_self
      cases operands with
      | nil => simp [Operand.spellAll, Operand.tokensAll, first.scan_spell ')' rfl]
      | cons second operands =>
          have others := ih fun operand member => scans operand (List.mem_cons_of_mem _ member)
          simp [Operand.spellAll, Operand.tokensAll, first.scan_spell ',' rfl, others]

theorem Connective.scan_word (connective : Connective) (rest : List Char) :
    scan (connective.word.toList ++ ' ' :: rest) =
      before [connective.token] (scan rest) := by
  cases connective
  · exact Token.scan_and rest
  · exact Token.scan_or rest

/-- A condition is scanned to its tokens, whatever stands behind it. -/
theorem Condition.scan_spell
    {condition : Condition}
    (scans : ∀ operand ∈ condition.operands, operand.Scans naming)
    (rest : List Char) :
    scan ((condition.spell naming).toList ++ rest) =
      before (condition.tokens naming) (scan rest) := by
  induction condition generalizing rest with
  | compare left operator right =>
      have first := scans left (by simp [operands])
      have second := scans right (by simp [operands])
      simp [spell, tokens, first.scan_spell ' ' rfl, second.scan_spell ')' rfl]
  | between value low high =>
      have first := scans value (by simp [operands])
      have second := scans low (by simp [operands])
      have third := scans high (by simp [operands])
      simp [spell, tokens, first.scan_spell ' ' rfl, second.scan_spell ' ' rfl,
        third.scan_spell ')' rfl]
  | among value candidates =>
      have first := scans value (by simp [operands])
      have others := Operand.scan_spellAll fun operand member =>
        scans operand (List.mem_cons_of_mem value member)
      simp [spell, tokens, first.scan_spell ' ' rfl, others]
  | joined connective left right leftIH rightIH =>
      have first := leftIH fun operand member => scans operand (List.mem_append_left _ member)
      have second := rightIH fun operand member =>
        scans operand (List.mem_append_right _ member)
      simp [spell, tokens, first, second, Connective.scan_word]
  | not inner ih => simp [spell, tokens, ih scans]
  | test predicate arguments =>
      have inner := @Operand.scan_spellAll naming arguments scans
      simp [spell, tokens, inner]

end

end ItemTable
