import ItemTable.Proofs.Expression.Enlarging
import ItemTable.Proofs.Expression.Operands
import ItemTable.Proofs.Path.Segments

/-!
# Paths as texts and in expressions

A text of words with dots between them, and digits in brackets behind the words, is
read as a path in two ways: by its dots and brackets, and by its tokens as part of an
expression.  If the words are no keywords and the indexes are below the bound, both find
the same path.  An index beyond the bound makes an expression unreadable wherever it
stands, while the text by itself names an attribute that is called like the whole
segment.
-/

namespace ItemTable

open Text (isWordStart isWordChar)
open ItemTable.Path (bracketed)

/-! ## The common syntax -/

namespace Path.SegmentText

/-- Whether a written segment is a word that is no keyword, with digits in brackets. -/
structure IsPlain (segment : SegmentText) : Prop where
  word : ∃ first others,
    segment.name = first :: others ∧ isWordStart first ∧ ∀ char ∈ others, isWordChar char
  noKeyword : Token.lowered segment.name ∉ Token.keywords.map Prod.fst
  indexes : ∀ index ∈ segment.indexes, index ≠ [] ∧ ∀ char ∈ index, char.isDigit

/-- Whether the digits in brackets denote indexes below the bound. -/
def IsBounded (segment : SegmentText) : Prop :=
  ∀ index ∈ segment.indexes, Nat.ofDigitChars 10 index 0 < 2 ^ 64

instance (segment : SegmentText) : Decidable segment.IsBounded :=
  inferInstanceAs (Decidable (∀ index ∈ segment.indexes, Nat.ofDigitChars 10 index 0 < 2 ^ 64))

variable {segment : SegmentText} {char : Char}

namespace IsPlain

theorem of_all
    {first : Char}
    {others : List Char}
    {indexes : List (List Char)}
    (start : isWordStart first)
    (chars : others.all isWordChar)
    (noKeyword : Token.lowered (first :: others) ∉ Token.keywords.map Prod.fst)
    (digits : indexes.all fun index => !index.isEmpty && index.all Char.isDigit) :
    IsPlain ⟨first :: others, indexes⟩ where
  word := ⟨first, others, rfl, start, List.all_eq_true.mp chars⟩
  noKeyword := noKeyword
  indexes := by
    intro index member
    have isNumber := List.all_eq_true.mp digits index member
    rw [Bool.and_eq_true, Bool.not_eq_true', List.isEmpty_eq_false_iff, List.all_eq_true]
      at isNumber
    exact isNumber

theorem isWordChar_of_mem_name
    (plain : segment.IsPlain)
    (member : char ∈ segment.name) :
    isWordChar char := by
  rcases plain.word with ⟨first, others, name, start, chars⟩
  rw [name] at member
  rcases List.mem_cons.mp member with rfl | later
  · exact Text.isWordChar_of_isWordStart start
  · exact chars char later

/-- A sign in a plain segment is a bracket. -/
theorem notMem_chars
    (plain : segment.IsPlain)
    (sign : isWordChar char = false)
    (strange : char ≠ '[' ∧ char ≠ ']') :
    char ∉ segment.chars := by
  refine SegmentText.notMem_chars strange (fun inName => ?_) fun index isIndex inIndex => ?_
  · exact absurd (plain.isWordChar_of_mem_name inName) (by simp [sign])
  · have isDigit := (plain.indexes index isIndex).2 char inIndex
    exact absurd (Text.isWordChar_of_isDigit isDigit) (by simp [sign])

theorem unbracketed (plain : segment.IsPlain) : '[' ∉ segment.name := fun inName =>
  absurd (plain.isWordChar_of_mem_name inName) (by decide)

theorem recognised
    (plain : segment.IsPlain)
    (bounded : segment.IsBounded) :
    segment.Recognised where
  unbracketed := plain.unbracketed
  named := by
    rcases plain.word with ⟨first, others, name, -, -⟩
    intro noName
    exact absurd (name.symm.trans noName) (List.cons_ne_nil _ _)
  indexes := by
    intro index member
    rcases plain.indexes index member with ⟨nonempty, chars⟩
    exact Option.isSome_of_eq_some (readIndex?_digits nonempty chars (bounded index member))

/-- A plain segment is read as its name and indexes, or as a name if an index is too large. -/
theorem parseSegment (plain : segment.IsPlain) :
    Path.parseSegment segment.chars =
      if segment.IsBounded then segment.read.elements
      else [.attribute (String.ofList segment.chars)] := by
  by_cases bounded : segment.IsBounded
  · rw [if_pos bounded, (plain.recognised bounded).parseSegment]
  · rw [if_neg bounded]
    have unclosed : ∀ index ∈ segment.indexes, ']' ∉ index := fun index isIndex member =>
      absurd ((plain.indexes index isIndex).2 ']' member) (by decide)
    have unread : ∃ index ∈ segment.indexes, readIndex? index = none := by
      simp only [IsBounded, not_forall] at bounded
      rcases bounded with ⟨index, isIndex, large⟩
      exact ⟨index, isIndex, readIndex?_digits_eq_none (plain.indexes index isIndex).2 large⟩
    exact parseSegment_of_unread plain.unbracketed unclosed unread

end IsPlain

end Path.SegmentText

open ItemTable.Path (SegmentText)

/-- A path in the common syntax: plain segments, at least one. -/
structure PathText where
  first : SegmentText
  others : List SegmentText
  plain : ∀ segment ∈ first :: others, segment.IsPlain

namespace PathText

def segments (place : PathText) : List SegmentText :=
  place.first :: place.others

/-- The segments with dots between them. -/
def text (place : PathText) : String :=
  String.ofList (Text.join '.' (place.segments.map SegmentText.chars))

/-- Whether all indexes are below the bound. -/
def IsBounded (place : PathText) : Prop :=
  ∀ segment ∈ place.segments, segment.IsBounded

instance (place : PathText) : Decidable place.IsBounded :=
  inferInstanceAs (Decidable (∀ segment ∈ place.segments, segment.IsBounded))

variable {place : PathText}

/-- The text by itself names the segments one by one. -/
theorem parse_text (place : PathText) :
    Path.parse place.text =
      ⟨place.segments.flatMap fun segment =>
        if segment.IsBounded then segment.read.elements
        else [.attribute (String.ofList segment.chars)]⟩ := by
  have unbroken : ∀ piece ∈ place.segments.map SegmentText.chars, '.' ∉ piece := by
    intro piece member
    rcases List.mem_map.mp member with ⟨segment, isSegment, rfl⟩
    exact (place.plain segment isSegment).notMem_chars (by decide) (by decide)
  have nonempty : place.segments.map SegmentText.chars ≠ [] := List.cons_ne_nil _ _
  rw [text, Path.parse_join nonempty unbroken, List.flatMap_map]
  exact congrArg Path.mk
    (List.flatMap_congr fun segment member => (place.plain segment member).parseSegment)

theorem parse_text_of_isBounded (bounded : place.IsBounded) :
    Path.parse place.text =
      ⟨place.segments.flatMap fun segment => segment.read.elements⟩ := by
  rw [parse_text]
  exact congrArg Path.mk
    (List.flatMap_congr fun segment member => if_pos (bounded segment member))

end PathText

/-! ## The tokens of a path -/

namespace PathPhrase

/-- The step that spells an element without placeholders. -/
def plainStep : PathElement → StepPhrase
  | .attribute name => .field (.identifier name)
  | .index position => .index position

/-- The path that is spelled without placeholders. -/
def plain (root : String) (elements : List PathElement) : PathPhrase where
  root := .identifier root
  steps := elements.map plainStep

theorem tokens_plain (root : String) (elements : List PathElement) :
    (plain root elements).tokens =
      .identifier root :: elements.flatMap fun element => (plainStep element).tokens := by
  rw [tokens, plain, List.flatMap_map]
  rfl

/-- Without placeholders, a path means the same everywhere. -/
theorem path?_plain (references : References) (root : String) (elements : List PathElement) :
    (plain root elements).path? references = some ⟨.attribute root :: elements⟩ := by
  have steps : (elements.map plainStep).mapM (StepPhrase.element? references) = some elements := by
    induction elements with
    | nil => rfl
    | cons element elements ih =>
        have here : (plainStep element).element? references = some element := by
          cases element <;> rfl
        exact Recognizes.mapM_cons_eq_some_iff.mpr ⟨element, elements, here, ih, rfl⟩
  rw [path?, plain, steps]
  rfl

end PathPhrase

open PathPhrase (plainStep)

namespace Lexes

variable {text rest : List Char} {tokens : List Token}

/-- A sign that takes up nothing may stand before any text. -/
theorem quietSign
    (token : Token)
    (spelling : String)
    (isSign : (spelling, token) ∈ Token.signs)
    (quiet : ∀ char, token.goesOn char = false)
    (behind : Lexes text tokens) :
    Lexes (spelling.toList ++ text) (token :: tokens) := by
  refine .token (.sign isSign) ?_ behind
  cases text with
  | nil => rfl
  | cons char text => exact quiet char

/-- Indexes in brackets are spelled with their tokens. -/
theorem bracketed_append
    {indexes : List (List Char)}
    (plain : ∀ index ∈ indexes, index ≠ [] ∧ ∀ char ∈ index, char.isDigit)
    (bounded : ∀ index ∈ indexes, Nat.ofDigitChars 10 index 0 < 2 ^ 64)
    (behind : Lexes rest tokens) :
    Lexes (indexes.flatMap bracketed ++ rest)
      (((indexes.filterMap Path.readIndex?).map PathElement.index).flatMap
        (fun element => (plainStep element).tokens) ++ tokens) := by
  induction indexes with
  | nil => exact behind
  | cons index indexes ih =>
      rcases List.forall_mem_cons.mp plain with ⟨⟨nonempty, chars⟩, plainOthers⟩
      rcases List.forall_mem_cons.mp bounded with ⟨small, smallOthers⟩
      have others := ih plainOthers smallOthers
      have closed := others.quietSign .closeBracket "]" (by decide) fun _ => rfl
      have counted := closed.token (.index nonempty chars small) rfl
      have opened := counted.quietSign .openBracket "[" (by decide) fun _ => rfl
      rw [List.filterMap_cons_some (Path.readIndex?_digits nonempty chars small), List.flatMap_cons,
        List.append_assoc, Path.bracketed_append]
      exact opened

end Lexes

/-- Nothing at the beginning of a text lengthens a word. -/
theorem Path.SegmentText.IsPlain.lexes
    {segment : SegmentText}
    {rest : List Char}
    {tokens : List Token}
    (plain : segment.IsPlain)
    (bounded : segment.IsBounded)
    (ends : rest.head?.any isWordChar = false)
    (behind : Lexes rest tokens) :
    Lexes (segment.chars ++ rest)
      (.identifier (String.ofList segment.name) ::
        ((segment.read.positions.map PathElement.index).flatMap
          (fun element => (plainStep element).tokens) ++ tokens)) := by
  have brackets := Lexes.bracketed_append plain.indexes bounded behind
  have endsWord : (segment.indexes.flatMap bracketed ++ rest).head?.any isWordChar = false := by
    cases segment.indexes with
    | nil => exact ends
    | cons index indexes => rfl
  have noKeyword := plain.noKeyword
  rcases plain.word with ⟨first, others, name, start, chars⟩
  rw [name] at noKeyword
  rw [SegmentText.chars, List.append_assoc, name]
  exact .token (.identifier start chars noKeyword) endsWord brackets

namespace PathText

variable {place : PathText} {rest : List Char} {tokens : List Token}

/-- The phrase with which a path is spelled. -/
def phrase (place : PathText) : PathPhrase :=
  .plain (String.ofList place.first.name)
    (place.first.read.positions.map .index ++
      place.others.flatMap fun segment => segment.read.elements)

/-- The phrase means what the text by itself names. -/
theorem path?_phrase (references : References) (bounded : place.IsBounded) :
    place.phrase.path? references = some (Path.parse place.text) := by
  rw [phrase, PathPhrase.path?_plain, parse_text_of_isBounded bounded]
  rfl

theorem ends_others
    (segments : List SegmentText)
    (ends : rest.head?.any isWordChar = false) :
    (segments.flatMap (fun segment => '.' :: segment.chars) ++ rest).head?.any isWordChar =
      false := by
  cases segments with
  | nil => exact ends
  | cons segment segments => rfl

theorem lexes_others
    {segments : List SegmentText}
    (plain : ∀ segment ∈ segments, segment.IsPlain)
    (bounded : ∀ segment ∈ segments, segment.IsBounded)
    (ends : rest.head?.any isWordChar = false)
    (behind : Lexes rest tokens) :
    Lexes (segments.flatMap (fun segment => '.' :: segment.chars) ++ rest)
      ((segments.flatMap fun segment => segment.read.elements).flatMap
        (fun element => (plainStep element).tokens) ++ tokens) := by
  induction segments with
  | nil => exact behind
  | cons segment segments ih =>
      rcases List.forall_mem_cons.mp plain with ⟨plainHere, plainOthers⟩
      rcases List.forall_mem_cons.mp bounded with ⟨boundedHere, boundedOthers⟩
      have others := ih plainOthers boundedOthers
      have named := plainHere.lexes boundedHere (ends_others segments ends) others
      have dotted := named.quietSign .dot "." (by decide) fun _ => rfl
      rw [List.flatMap_cons, List.flatMap_cons, List.flatMap_append, List.append_assoc,
        List.append_assoc]
      exact dotted

/-- A path is spelled with the tokens of its phrase, whatever stands behind it. -/
theorem lexes
    (bounded : place.IsBounded)
    (ends : rest.head?.any isWordChar = false)
    (behind : Lexes rest tokens) :
    Lexes (place.text.toList ++ rest) (place.phrase.tokens ++ tokens) := by
  rcases List.forall_mem_cons.mp place.plain with ⟨plainFirst, plainOthers⟩
  rcases List.forall_mem_cons.mp bounded with ⟨boundedFirst, boundedOthers⟩
  have others := lexes_others plainOthers boundedOthers ends behind
  have whole := plainFirst.lexes boundedFirst (ends_others place.others ends) others
  have chars : place.text.toList =
      place.first.chars ++ place.others.flatMap fun segment => '.' :: segment.chars := by
    rw [text, String.toList_ofList, segments, List.map_cons, Text.join_cons, List.flatMap_map]
  rw [chars, phrase, PathPhrase.tokens_plain, List.append_assoc, List.flatMap_append,
    List.cons_append, List.append_assoc]
  exact whole

theorem lexes_text (bounded : place.IsBounded) :
    Lexes place.text.toList place.phrase.tokens := by
  have spelled := @lexes place [] [] bounded rfl .nil
  rw [List.append_nil, List.append_nil] at spelled
  exact spelled

/-- A path is a projection to itself. -/
theorem projection_text (bounded : place.IsBounded) (scope : Scope) :
    (scope.projection place.text).1 = .ok [Path.parse place.text] := by
  refine Scope.projection_fst_eq_ok_iff.mpr ⟨⟨place.phrase, []⟩, ?_, ?_⟩
  · rw [PathPhrases.tokens, List.flatMap_nil, List.append_nil]
    exact lexes_text bounded
  · rw [PathPhrases.paths?, path?_phrase scope.references bounded]
    rfl

/-- A path is read as an operand if no further step stands behind it. -/
theorem parseOperand_phrase
    (references : References)
    (bounded : place.IsBounded)
    {behind : List Token}
    (stops : Stops Token.isStep behind) :
    references.parseOperand (place.phrase.tokens ++ behind) =
      .ok (.path (Path.parse place.text), behind) := by
  have meant : (OperandPhrase.path place.phrase).operand? references =
      some (.path (Path.parse place.text)) := by
    rw [OperandPhrase.operand?, path?_phrase references bounded]
    rfl
  exact (references.recognizes_parseOperand _).complete meant stops (Nat.le_refl _)

/-- An operand that is spelled like a path stands for what the path names. -/
theorem operand?_of_lexes
    (references : References)
    (bounded : place.IsBounded)
    {operand : OperandPhrase}
    (spelled : Lexes place.text.toList operand.tokens) :
    operand.operand? references = some (.path (Path.parse place.text)) := by
  have tokens : operand.tokens ++ [] = (OperandPhrase.path place.phrase).tokens ++ [] :=
    congrArg (· ++ []) (spelled.unique (lexes_text bounded))
  rcases OperandPhrase.tellsApart tokens rfl rfl with ⟨rfl, -⟩
  rw [OperandPhrase.operand?, path?_phrase references bounded]
  rfl

/-- A comparison of two paths is read as the comparison of what they name. -/
theorem condition_compare
    {other : PathText}
    (bounded : place.IsBounded)
    (otherBounded : other.IsBounded)
    (operator : Comparison)
    (scope : Scope) :
    (scope.condition (place.text ++ " " ++ operator.symbol ++ " " ++ other.text)).1 =
      .ok (.compare (.path (Path.parse place.text)) operator (.path (Path.parse other.text))) := by
  have isSign : (operator.symbol, Token.comparison operator) ∈ Token.signs := by
    cases operator <;> decide
  have right : Lexes (' ' :: other.text.toList) other.phrase.tokens :=
    .blank rfl (lexes_text otherBounded)
  have signed : Lexes (operator.symbol.toList ++ ' ' :: other.text.toList)
      (.comparison operator :: other.phrase.tokens) := by
    refine .token (.sign isSign) ?_ right
    cases operator <;> rfl
  have whole := lexes bounded rfl (.blank rfl signed : Lexes (' ' :: _) _)
  refine Scope.condition_fst_eq_ok_iff.mpr
    ⟨.chain (.chain (.plain (.related (.path place.phrase)
      (.compare operator (.path other.phrase)))) .nil) .nil, ?_, ?_⟩
  · simpa [Phrase.tokens, Phrases.tokens, RelationPhrase.tokens, OperandPhrase.tokens] using whole
  · simp [Phrase.condition?, Phrases.conditions?, RelationPhrase.condition?,
      OperandPhrase.operand?, path?_phrase _ bounded, path?_phrase _ otherBounded]

end PathText

/-! ## Indexes beyond the bound -/

namespace Token.Spelled

variable {token : Token} {spelling : List Char}

/-- An opening bracket is part of no longer spelling. -/
theorem eq_of_bracket_mem
    (spelled : token.Spelled spelling)
    (member : '[' ∈ spelling) :
    spelling = ['['] := by
  have alone : ∀ entry ∈ signs, '[' ∈ entry.1.toList → entry.1.toList = ['['] := by decide
  have noWord {word : List Char} (chars : ∀ char ∈ word, isWordChar char) : '[' ∉ word :=
    fun inWord => absurd (chars '[' inWord) (by decide)
  cases spelled with
  | sign isSign => exact alone _ isSign member
  | name nonempty chars =>
      exact absurd member (List.not_mem_cons_of_ne_of_not_mem (by decide) (noWord chars))
  | value nonempty chars =>
      exact absurd member (List.not_mem_cons_of_ne_of_not_mem (by decide) (noWord chars))
  | index nonempty chars bounded => exact absurd (chars '[' member) (by decide)
  | keyword start chars isKeyword =>
      exact absurd member
        (noWord (List.forall_mem_cons.mpr ⟨Text.isWordChar_of_isWordStart start, chars⟩))
  | identifier start chars noKeyword =>
      exact absurd member
        (noWord (List.forall_mem_cons.mpr ⟨Text.isWordChar_of_isWordStart start, chars⟩))

/-- What begins with a digit is an index below the bound, which takes up digits. -/
theorem of_isDigit
    (spelled : token.Spelled spelling)
    {first : Char}
    (begins : spelling.head? = some first)
    (isDigit : first.isDigit) :
    (∀ char ∈ spelling, char.isDigit) ∧ Nat.ofDigitChars 10 spelling 0 < 2 ^ 64 ∧
      token.goesOn = Char.isDigit := by
  have noSign : ∀ entry ∈ signs, entry.1.toList.head?.any Char.isDigit = false := by decide
  have noMark {mark : Char} (strange : mark.isDigit = false) (same : some mark = some first) :
      False := by
    cases same
    exact absurd isDigit (by simp [strange])
  cases spelled with
  | sign isSign =>
      have other := noSign _ isSign
      rw [begins] at other
      exact absurd (other.symm.trans isDigit) Bool.false_ne_true
  | name nonempty chars => exact (noMark (by decide) begins).elim
  | value nonempty chars => exact (noMark (by decide) begins).elim
  | index nonempty chars bounded => exact ⟨chars, bounded, rfl⟩
  | keyword start chars isKeyword =>
      cases begins
      exact absurd start (by simp [Text.isWordStart_eq_false_of_isDigit isDigit])
  | identifier start chars noKeyword =>
      cases begins
      exact absurd start (by simp [Text.isWordStart_eq_false_of_isDigit isDigit])

theorem ne_nil (spelled : token.Spelled spelling) : spelling ≠ [] := by
  have noSign : ∀ entry ∈ signs, entry.1.toList ≠ [] := by decide
  cases spelled with
  | sign isSign => exact noSign _ isSign
  | index nonempty chars bounded => exact nonempty
  | _ => exact List.cons_ne_nil _ _

end Token.Spelled

namespace Lexes

variable {text digits behind : List Char} {tokens : List Token}

/-- Digits before a bracket are an index. -/
theorem lt_of_digits
    (nonempty : digits ≠ [])
    (chars : ∀ char ∈ digits, char.isDigit)
    (lexes : Lexes (digits ++ ']' :: behind) tokens) :
    Nat.ofDigitChars 10 digits 0 < 2 ^ 64 := by
  cases digits with
  | nil => exact absurd rfl nonempty
  | cons first digits =>
      have isDigit := chars first List.mem_cons_self
      generalize shape : first :: digits ++ ']' :: behind = text at lexes
      cases lexes with
      | nil => cases shape
      | blank isBlank rest =>
          cases shape
          have inWord := Text.isWordChar_of_isDigit isDigit
          exact absurd isBlank (by simp [Text.isAsciiBlank_eq_false_of_isWordChar inWord])
      | @token token spelling text tokens spelled longest rest =>
          have begins : spelling.head? = some first := by
            have heads := congrArg List.head? shape
            rw [List.head?_append_of_ne_nil _ spelled.ne_nil] at heads
            exact heads.symm
          rcases spelled.of_isDigit begins isDigit with ⟨spelledDigits, small, goesOn⟩
          rw [goesOn] at longest
          have taken := (Text.takeWhile_append_of_ends spelledDigits longest).1
          have takenDigits := (Text.takeWhile_append_of_ends chars
            (rfl : (']' :: behind).head?.any Char.isDigit = false)).1
          rw [shape, taken] at takenDigits
          rw [← takenDigits]
          exact small

/-- Digits in brackets are an index wherever they stand. -/
theorem lt_of_bracketed
    (nonempty : digits ≠ [])
    (chars : ∀ char ∈ digits, char.isDigit)
    (lexes : Lexes text tokens)
    (inside : bracketed digits <:+: text) :
    Nat.ofDigitChars 10 digits 0 < 2 ^ 64 := by
  rcases inside with ⟨before, behind, shape⟩
  rw [List.append_assoc, Path.bracketed_append] at shape
  induction lexes generalizing before with
  | nil => exact absurd shape (List.append_ne_nil_of_right_ne_nil _ (List.cons_ne_nil _ _))
  | @blank char text tokens isBlank rest ih =>
      cases before with
      | nil =>
          cases shape
          exact absurd isBlank (by decide)
      | cons first before => exact ih before (List.cons.inj shape).2
  | @token token spelling text tokens spelled longest rest ih =>
      -- The bracket begins in the first spelling or behind it.
      rcases List.append_eq_append_iff.mp shape with ⟨left, rfl, bracket⟩ | ⟨left, rfl, bracket⟩
      · cases left with
        | nil => exact ih [] bracket
        | cons first left =>
            rcases List.cons.inj bracket with
              ⟨rfl, (digitsFollow : digits ++ ']' :: behind = left ++ text)⟩
            have alone := spelled.eq_of_bracket_mem
              (List.mem_append_right before List.mem_cons_self)
            rcases List.append_eq_singleton_iff.mp alone with ⟨-, single⟩ | ⟨-, none⟩
            · rw [(List.cons.inj single).2, List.nil_append] at digitsFollow
              rw [← digitsFollow] at rest
              exact rest.lt_of_digits nonempty chars
            · cases none
      · exact ih left bracket.symm

end Lexes

namespace PathText

variable {place : PathText}

/-- An expression in which an index is beyond the bound is not read. -/
theorem parse_fails
    {α : Type}
    (parser : References → List Token → Except ParseFailure α)
    (unbounded : ¬place.IsBounded)
    (scope : Scope)
    (before behind : String) :
    ∃ failure, (scope.parse parser (before ++ place.text ++ behind)).1 = .error failure := by
  cases read : (scope.parse parser (before ++ place.text ++ behind)).1 with
  | error failure => exact ⟨failure, rfl⟩
  | ok result =>
      refine absurd ?_ unbounded
      rcases Scope.parse_fst_eq_ok_iff.mp read with ⟨tokens, scanned, -⟩
      rcases References.scanExpression_eq_ok_iff.mp scanned with ⟨lexemes, -, -, spelled⟩
      intro segment member index isIndex
      rcases (place.plain segment member).indexes index isIndex with ⟨nonempty, chars⟩
      have inBrackets : bracketed index <:+: segment.indexes.flatMap bracketed :=
        List.infix_of_mem_flatten (List.mem_map_of_mem isIndex)
      have inSegment : bracketed index <:+: segment.chars :=
        inBrackets.trans (List.suffix_append _ _).isInfix
      have inPath : bracketed index <:+: place.text.toList := by
        rw [text, String.toList_ofList]
        exact inSegment.trans (Text.isInfix_join_of_mem (List.mem_map_of_mem member))
      have inside : bracketed index <:+: (before ++ place.text ++ behind).toList := by
        rw [String.toList_append, String.toList_append]
        exact inPath.trans (List.infix_append _ _ _)
      exact spelled.lt_of_bracketed nonempty chars inside

/-- The two readers agree on the common syntax.  The text by itself names its segments one
by one, where a segment with an index beyond the bound is a name as it stands.  If there is
no such index, the text is a projection to the one path that it names, and as an operand it
is read as this path: by the operand reader whatever stands behind, in comparisons of all
kinds, and wherever it stands as an operand of a condition that is read.  If there is one,
no expression with the text in it is read. -/
theorem readers_agree (place : PathText) :
    Path.parse place.text =
      ⟨place.segments.flatMap fun segment =>
        if segment.IsBounded then segment.read.elements
        else [.attribute (String.ofList segment.chars)]⟩ ∧
    (place.IsBounded → ∀ scope : Scope,
      (scope.projection place.text).1 = .ok [Path.parse place.text] ∧
      (∃ tokens, Lexes place.text.toList tokens ∧
        ∀ behind, Stops Token.isStep behind →
          scope.references.parseOperand (tokens ++ behind) =
            .ok (.path (Path.parse place.text), behind)) ∧
      (∀ operator (other : PathText), other.IsBounded →
        (scope.condition (place.text ++ " " ++ operator.symbol ++ " " ++ other.text)).1 =
          .ok (.compare (.path (Path.parse place.text)) operator
            (.path (Path.parse other.text)))) ∧
      ∀ (expression : String) (condition : Condition) (found : Phrase (.chain .or)),
        (scope.condition expression).1 = .ok condition →
        Lexes expression.toList found.tokens →
        ∀ (n : Nat) (phrase : OperandPhrase), found.operands[n]? = some phrase →
          Lexes place.text.toList phrase.tokens →
            condition.operands[n]? = some (.path (Path.parse place.text))) ∧
    (¬place.IsBounded → ∀ (scope : Scope) (before behind : String),
      (∃ failure,
        (scope.projection (before ++ place.text ++ behind)).1 = .error failure) ∧
      ∃ failure,
        (scope.condition (before ++ place.text ++ behind)).1 = .error failure) := by
  refine ⟨place.parse_text, fun bounded scope => ⟨place.projection_text bounded scope, ?_, ?_, ?_⟩,
    fun unbounded scope before behind => ⟨?_, ?_⟩⟩
  · exact ⟨place.phrase.tokens, lexes_text bounded,
      fun _ => parseOperand_phrase scope.references bounded⟩
  · exact fun operator _ otherBounded => condition_compare bounded otherBounded operator scope
  · intro expression condition found read spelled n phrase isOperand spelledOperand
    exact (Scope.means_of_condition read spelled).getElem? isOperand
      (operand?_of_lexes scope.references bounded spelledOperand)
  · exact parse_fails References.projection unbounded scope before behind
  · exact parse_fails References.condition unbounded scope before behind

/-- The text `Info.Tags[007][12]._x1`. -/
def padded : PathText where
  first := ⟨['I', 'n', 'f', 'o'], []⟩
  others := [⟨['T', 'a', 'g', 's'], [['0', '0', '7'], ['1', '2']]⟩, ⟨['_', 'x', '1'], []⟩]
  plain := by
    simp only [List.forall_mem_cons]
    exact
      ⟨.of_all (by decide) (by decide) (by decide) (by decide),
        .of_all (by decide) (by decide) (by decide) (by decide),
        .of_all (by decide) (by decide) (by decide) (by decide),
        fun _ absent => absurd absent List.not_mem_nil⟩

/-- The text `a.b[18446744073709551616]`. -/
def distant : PathText where
  first := ⟨['a'], []⟩
  others := [⟨['b'], [Nat.toDigits 10 (2 ^ 64)]⟩]
  plain := by
    simp only [List.forall_mem_cons]
    exact
      ⟨.of_all (by decide) (by decide) (by decide) (by decide),
        .of_all (by decide) (by decide) (by decide) (by decide),
        fun _ absent => absurd absent List.not_mem_nil⟩

/-- Padded indexes are read by both readers; an index at the bound by neither. -/
theorem readers_agree_padded_and_distant :
    (padded.IsBounded ∧
      ((Scope.start ∅ ∅).projection padded.text).1 =
        .ok [⟨[.attribute "Info", .attribute "Tags", .index 7, .index 12, .attribute "_x1"]⟩]) ∧
    ¬distant.IsBounded ∧
      Path.parse distant.text =
        ⟨[.attribute "a", .attribute "b[18446744073709551616]"]⟩ ∧
      ∃ failure, ((Scope.start ∅ ∅).projection ("c, " ++ distant.text ++ ".d")).1 =
        .error failure := by
  have bounded : padded.IsBounded := by decide
  have unbounded : ¬distant.IsBounded := by decide
  rcases readers_agree padded with ⟨parsed, agree, -⟩
  rcases readers_agree distant with ⟨parsedDistant, -, fails⟩
  refine ⟨⟨bounded, ?_⟩, unbounded, ?_, (fails unbounded _ "c, " ".d").1⟩
  · rw [(agree bounded _).1, parsed]
    rfl
  · rw [parsedDistant]
    rfl

end PathText

end ItemTable
