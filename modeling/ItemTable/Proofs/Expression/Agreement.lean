import ItemTable.Proofs.Expression.Parsing

/-!
# Expressions depend on their own placeholders

What is read from tokens, and why it cannot be read, depends on the meanings of the
placeholders among these tokens only.  A parser looks at its tokens from the front and
leaves a rest of them to the next one, so two parsers that do the same with every rest
of the tokens can be put one behind the other.
-/

namespace ItemTable

/-- Two collections of meanings explain the placeholders among tokens alike. -/
structure References.AgreeOn (first second : References) (tokens : List Token) : Prop where
  names : ∀ word, .name word ∈ tokens →
    first.names.find? ("#" ++ word) = second.names.find? ("#" ++ word)
  values : ∀ word, .value word ∈ tokens →
    first.values.find? (":" ++ word) = second.values.find? (":" ++ word)

/-- Two parsers do the same with every rest of the tokens, and leave a rest. -/
structure SameOn
    {α : Type}
    (tokens : List Token)
    (first second : List Token → Except ParseFailure (α × List Token)) : Prop where
  same : ∀ input, input <:+ tokens → first input = second input
  rest : ∀ input value rest, first input = .ok (value, rest) → rest <:+ input

theorem Recognizes.rest
    {phrase α : Type}
    {bound : Nat}
    {parser : List Token → Except ParseFailure (α × List Token)}
    {tokens : phrase → List Token}
    {meaning? : phrase → Option α}
    {goesOn : Token → Bool}
    (recognizes : Recognizes bound parser tokens meaning? goesOn)
    (input : List Token)
    (value : α)
    (rest : List Token)
    (parsed : parser input = .ok (value, rest)) :
    rest <:+ input := by
  rcases recognizes.sound parsed with ⟨found, rfl, -⟩
  exact List.suffix_append (tokens found) rest

namespace SameOn

variable
    {α β γ : Type}
    {tokens : List Token}
    {first second : List Token → Except ParseFailure (α × List Token)}

theorem pure (value : α) :
    SameOn tokens (fun input => .ok (value, input)) fun input => .ok (value, input) := by
  constructor
  · exact fun _ _ => rfl
  · rintro input _ _ ⟨⟩
    exact List.suffix_rfl

theorem expect (token : Token) : SameOn tokens (Token.expect token) (Token.expect token) := by
  constructor
  · exact fun _ _ => rfl
  · intro input done rest expected
    rw [Token.expect_eq_ok_iff] at expected
    subst expected
    exact List.suffix_cons token rest

/-- One parser behind another. -/
theorem bind
    {next other : α → List Token → Except ParseFailure (β × List Token)}
    (front : SameOn tokens first second)
    (back : ∀ value, SameOn tokens (next value) (other value)) :
    SameOn tokens (fun input => first input >>= fun (value, rest) => next value rest)
      fun input => second input >>= fun (value, rest) => other value rest := by
  constructor
  · intro input inside
    dsimp only
    rw [← front.same input inside]
    apply bind_congr_of_ok
    rintro ⟨value, rest⟩ parsed
    exact (back value).same rest ((front.rest _ _ _ parsed).trans inside)
  · intro input value rest parsed
    rcases bind_eq_ok.mp parsed with ⟨⟨_, behind⟩, parsedFirst, parsedNext⟩
    exact ((back _).rest _ _ _ parsedNext).trans (front.rest _ _ _ parsedFirst)

theorem behind (parsers : SameOn tokens first second) (sign : Token) :
    SameOn tokens (sign.behind first) (sign.behind second) :=
  (expect sign).bind fun _ => parsers

theorem enclosed (parsers : SameOn tokens first second) :
    SameOn tokens (parseEnclosed first) (parseEnclosed second) :=
  (expect .openParenthesis).bind fun _ =>
    parsers.bind fun value => (expect .closeParenthesis).bind fun _ => pure value

theorem many
    (parsers : SameOn tokens first second)
    (isSign : Token → Bool)
    (fuel : Nat) :
    SameOn tokens (parseMany isSign first fuel) (parseMany isSign second fuel) := by
  induction fuel with
  | zero => exact pure []
  | succ fuel ih =>
      have further := parsers.bind fun value => ih.bind fun values => pure (value :: values)
      constructor
      · intro input inside
        rw [parseMany, parseMany]
        split
        · exact further.same input inside
        · rfl
      · intro input values rest parsed
        rw [parseMany] at parsed
        split at parsed
        · exact further.rest _ _ _ parsed
        · cases parsed
          exact List.suffix_rfl

theorem sequence
    {head otherHead : List Token → Except ParseFailure (β × List Token)}
    (heads : SameOn tokens head otherHead)
    (parsers : SameOn tokens first second)
    (isSign : Token → Bool)
    (build : β → List α → γ) :
    SameOn tokens (parseSequence head isSign first build)
      (parseSequence otherHead isSign second build) := by
  have others : SameOn tokens (fun input => parseMany isSign first input.length input)
      fun input => parseMany isSign second input.length input :=
    ⟨fun input => (parsers.many isSign input.length).same input,
      fun input => (parsers.many isSign input.length).rest input⟩
  exact heads.bind fun value => others.bind fun values => pure (build value values)

end SameOn

namespace References.AgreeOn

variable {first second : References} {tokens : List Token}

/-! ## Paths and operands -/

theorem parseName (agree : first.AgreeOn second tokens) :
    SameOn tokens first.parseName second.parseName := by
  refine ⟨?_, (first.recognizes_parseName 0).rest⟩
  intro input inside
  unfold References.parseName
  split
  · rfl
  · rename_i word rest
    dsimp only
    rw [agree.names word (inside.subset List.mem_cons_self)]
  · rfl

theorem parseStep (agree : first.AgreeOn second tokens) :
    SameOn tokens first.parseStep second.parseStep := by
  refine ⟨?_, (first.recognizes_parseStep 0).rest⟩
  intro input inside
  unfold References.parseStep
  split
  · exact agree.parseName.same _ ((List.suffix_cons _ _).trans inside)
  · rfl
  · rfl
  · rfl

theorem parsePath (agree : first.AgreeOn second tokens) :
    SameOn tokens first.parsePath second.parsePath := by
  rw [parsePath_eq_parseSequence, parsePath_eq_parseSequence]
  exact agree.parseName.sequence agree.parseStep _ _

theorem parseOperand (agree : first.AgreeOn second tokens) :
    SameOn tokens first.parseOperand second.parseOperand := by
  refine ⟨?_, (first.recognizes_parseOperand 0).rest⟩
  intro input inside
  unfold References.parseOperand
  split
  · rename_i word rest
    dsimp only
    rw [agree.values word (inside.subset List.mem_cons_self)]
  · rename_i rest
    have size := agree.parsePath.enclosed.bind fun place => SameOn.pure (Operand.size place)
    have same := size.same rest ((List.suffix_cons _ _).trans inside)
    change first.parseOperand (.size :: rest) = second.parseOperand (.size :: rest)
    rw [parseOperand_size, parseOperand_size]
    exact same
  · exact (agree.parsePath.bind fun place => SameOn.pure (Operand.path place)).same input inside

theorem parseOperands (agree : first.AgreeOn second tokens) :
    SameOn tokens first.parseOperands second.parseOperands := by
  rw [parseOperands_eq_parseSequence, parseOperands_eq_parseSequence]
  exact agree.parseOperand.sequence (agree.parseOperand.behind .comma) _ _

/-! ## Conditions -/

theorem parseTest (agree : first.AgreeOn second tokens) (predicate : Predicate) :
    SameOn tokens (first.parseTest predicate) (second.parseTest predicate) := by
  refine ⟨?_, (first.recognizes_parseTest 0 predicate).rest⟩
  intro input inside
  rw [parseTest_eq, parseTest_eq, agree.parseOperands.enclosed.same input inside]

theorem parseRelation (agree : first.AgreeOn second tokens) (left : Operand) :
    SameOn tokens (first.parseRelation left) (second.parseRelation left) := by
  have operand := agree.parseOperand
  refine ⟨?_, (first.recognizes_parseRelation 0 left).rest⟩
  intro input inside
  unfold References.parseRelation
  split
  · rename_i operator rest
    have compared := operand.bind fun right => SameOn.pure (Condition.compare left operator right)
    exact compared.same rest ((List.suffix_cons _ _).trans inside)
  · rename_i rest
    have ranged := operand.bind fun low => (SameOn.expect .and).bind fun _ =>
      operand.bind fun high => SameOn.pure (Condition.between left low high)
    exact ranged.same rest ((List.suffix_cons _ _).trans inside)
  · rename_i rest
    have listed := agree.parseOperands.enclosed.bind fun candidates =>
      SameOn.pure (Condition.among left candidates)
    change first.parseRelation left (.among :: rest) = second.parseRelation left (.among :: rest)
    rw [parseRelation_among, parseRelation_among]
    exact listed.same rest ((List.suffix_cons _ _).trans inside)
  · rfl

section

variable
    {inner other : List Token → Except ParseFailure (Condition × List Token)}
    (nested : SameOn tokens inner other)

include nested

theorem parsePrimary (agree : first.AgreeOn second tokens) :
    SameOn tokens (first.parsePrimary inner) (second.parsePrimary other) := by
  have related := agree.parseOperand.bind agree.parseRelation
  constructor
  · intro input inside
    unfold References.parsePrimary
    split
    · rename_i rest
      have enclosed := nested.enclosed.same (.openParenthesis :: rest) inside
      rw [parseEnclosed, parseEnclosed, Token.expect_cons, ok_bind, ok_bind] at enclosed
      exact enclosed
    · rename_i predicate rest
      exact (agree.parseTest predicate).same rest ((List.suffix_cons _ _).trans inside)
    · exact related.same input inside
  · intro input condition rest parsed
    unfold References.parsePrimary at parsed
    split at parsed
    · rename_i behind
      change first.parsePrimary inner (.openParenthesis :: behind) = _ at parsed
      rw [parsePrimary_openParenthesis] at parsed
      exact nested.enclosed.rest _ _ _ parsed
    · rename_i predicate behind
      have left := (agree.parseTest predicate).rest _ _ _ parsed
      exact left.trans (List.suffix_cons _ _)
    · exact related.rest _ _ _ parsed

theorem parseNegation (agree : first.AgreeOn second tokens) :
    SameOn tokens (first.parseNegation inner) (second.parseNegation other) := by
  have primary := parsePrimary nested agree
  constructor
  · intro input inside
    fun_induction References.parseNegation first inner input with
    | case1 rest ih =>
        rw [References.parseNegation, ih ((List.suffix_cons _ _).trans inside)]
    | case2 input noNot =>
        rw [References.parseNegation]
        · exact primary.same input inside
        · exact noNot
  · intro input condition rest parsed
    fun_induction References.parseNegation first inner input generalizing condition with
    | case1 behind ih =>
        rcases bind_eq_ok.mp parsed with ⟨⟨negated, _⟩, parsedInner, ⟨⟩⟩
        exact (ih _ parsedInner).trans (List.suffix_cons _ _)
    | case2 input noNot => exact primary.rest _ _ _ parsed

end

theorem parseCondition (agree : first.AgreeOn second tokens) (depth : Nat) :
    SameOn tokens (first.parseCondition depth) (second.parseCondition depth) := by
  induction depth with
  | zero => exact ⟨fun _ _ => rfl, nofun⟩
  | succ depth ih =>
      have chained
          {part other : List Token → Except ParseFailure (Condition × List Token)}
          (parts : SameOn tokens part other)
          (word : Token)
          (connective : Connective) :
          SameOn tokens (parseChain word connective part) (parseChain word connective other) := by
        rw [parseChain_eq_parseSequence, parseChain_eq_parseSequence]
        exact parts.sequence (parts.behind word) _ _
      exact chained (chained (parseNegation ih agree) .and .and) .or .or

/-- The condition that tokens are depends on the placeholders among them only. -/
theorem condition (agree : first.AgreeOn second tokens) :
    first.condition tokens = second.condition tokens := by
  rw [References.condition, References.condition,
    (agree.parseCondition tokens.length).same tokens List.suffix_rfl]

end References.AgreeOn

/-- Where a text of known tokens is read, only the meanings of their placeholders matter. -/
theorem Scope.condition_fst_congr
    {first second : Scope}
    {text : String}
    {tokens : List Token}
    (scanned : References.scanExpression text = .ok tokens)
    (agree : first.references.AgreeOn second.references tokens) :
    (first.condition text).1 = (second.condition text).1 := by
  rw [condition, condition, parse, parse, scanned]
  dsimp only
  rw [agree.condition]
  cases second.references.condition tokens <;> rfl

end ItemTable
