import ItemTable.Proofs.Expression.Enlarging

/-!
# Noting placeholders while reading

A placeholder is in use from the moment in which it is replaced.  A reader of tokens that
carries the scope along can note each placeholder just then, and what it has noted stays
noted if reading fails later on.  `Scope.parse` reads with the references alone and notes
the placeholders of all tokens taken in one go.

Both are the same.  Each reader below does what its parser does: it replaces every
placeholder among the tokens that it takes, each once and in their order, and it replaces
nothing else.
-/

namespace ItemTable

/-- Whether a token is replaced when it is read. -/
def Token.isPlaceholder : Token → Bool
  | name _ | value _ => true
  | _ => false

/-- A reader of tokens that notes placeholders in a scope, also when it fails. -/
abbrev Noting (α : Type) : Type :=
  StateT (List Token) (ExceptT ParseFailure (StateM Scope)) α

namespace Noting

variable {α β γ : Type}

/-! ## The readers -/

/-- Do what a parser does that replaces nothing. -/
def quiet (parser : List Token → Except ParseFailure (α × List Token)) : Noting α :=
  fun tokens scope => (parser tokens, scope)

/-- Take one given token. -/
def expect (token : Token) : Noting Unit :=
  quiet (Token.expect token)

/-- Read what stands behind a sign. -/
def behind (sign : Token) (reader : Noting α) : Noting α := do
  expect sign
  reader

/-- Read what stands in parentheses. -/
def enclosed (reader : Noting α) : Noting α := do
  expect .openParenthesis
  let value ← reader
  expect .closeParenthesis
  return value

/-- Read one part after the other as long as a sign follows; `fuel` is at least the number
of tokens. -/
def many (isSign : Token → Bool) (each : Noting α) : Nat → Noting (List α)
  | fuel + 1 => do
      if (← get).head?.any isSign then
        let value ← each
        (value :: ·) <$> many isSign each fuel
      else
        return []
  | 0 => return []

/-- Read a first part and those behind it. -/
def sequence
    (head : Noting β)
    (isSign : Token → Bool)
    (each : Noting α)
    (build : β → List α → γ) :
    Noting γ := do
  let value ← head
  build value <$> many isSign each (← get).length

/-- Read the name of a path element. -/
def name : Noting PathElement
  | .identifier word :: rest, scope => (.ok (.attribute word, rest), scope)
  | .name word :: rest, scope =>
      let placeholder := "#" ++ word
      match scope.references.names.find? placeholder with
      | some name =>
          (.ok (.attribute name, rest),
            { scope with usedNames := scope.usedNames ++ [placeholder] })
      | none => (.error ⟨.unresolvedName placeholder, .name word :: rest⟩, scope)
  | tokens, scope => (Token.refuse "an attribute name or #name" tokens, scope)

/-- Read one step of a path. -/
def step : Noting PathElement
  | .dot :: rest => name rest
  | .openBracket :: .index position :: rest =>
      behind .closeBracket (return PathElement.index position) rest
  | .openBracket :: rest => quiet (Token.refuse "a list index") rest
  | tokens => quiet (Token.refuse "a step") tokens

/-- Read a path. -/
def path : Noting Path :=
  sequence name Token.isStep step fun element elements => ⟨element :: elements⟩

/-- Read an operand: a literal, a size, or a path. -/
def operand : Noting Operand
  | .value word :: rest, scope =>
      let placeholder := ":" ++ word
      match scope.references.values.find? placeholder with
      | some value =>
          (.ok (.value value, rest),
            { scope with usedValues := scope.usedValues ++ [placeholder] })
      | none => (.error ⟨.unresolvedValue placeholder, .value word :: rest⟩, scope)
  | .size :: rest, scope => (Operand.size <$> enclosed path) rest scope
  | tokens, scope => (Operand.path <$> path) tokens scope

/-- Read operands with commas between them, at least one. -/
def operands : Noting (List Operand) :=
  sequence operand (· == .comma) (behind .comma operand) List.cons

/-- Read the arguments of a predicate, and check them once they are all read. -/
def test (predicate : Predicate) : Noting Condition := do
  let arguments ← enclosed operands
  quiet (References.checkArguments predicate arguments)

/-- Read what follows the first operand of a condition. -/
def relation (left : Operand) : Noting Condition
  | .comparison operator :: rest => (Condition.compare left operator <$> operand) rest
  | .between :: rest =>
      (do
        let low ← operand
        expect .and
        Condition.between left low <$> operand) rest
  | .among :: rest => (Condition.among left <$> enclosed operands) rest
  | tokens => quiet (Token.refuse "a comparison operator, BETWEEN or IN") tokens

/-- Read a condition without connectives; `inner` reads what parentheses hold. -/
def primary (inner : Noting Condition) : Noting Condition
  | .openParenthesis :: rest => enclosed inner (.openParenthesis :: rest)
  | .predicate predicate :: rest => test predicate rest
  | tokens => (operand >>= relation) tokens

/-- Read a condition behind any number of NOTs. -/
def negation
    (inner : Noting Condition) :
    List Token → ExceptT ParseFailure (StateM Scope) (Condition × List Token)
  | .not :: rest => do
      let (condition, rest) ← negation inner rest
      return (.not condition, rest)
  | tokens => primary inner tokens

/-- Read conditions with `word` between them, at least one. -/
def chain (word : Token) (connective : Connective) (part : Noting Condition) :
    Noting Condition :=
  sequence part (· == word) (behind word part) fun left rights =>
    rights.foldl (.joined connective) left

/-- Read a condition in which fewer than `depth` parentheses are open at once. -/
def condition : Nat → Noting Condition
  | 0 => quiet fun tokens => .error ⟨.empty, tokens⟩
  | depth + 1 => chain .or .or (chain .and .and (negation (condition depth)))

/-- Read paths with commas between them, at least one. -/
def paths : Noting (List Path) :=
  sequence path (· == .comma) (behind .comma path) List.cons

section

variable {isSign : Token → Bool} {each : Noting α} {input : List Token}

theorem many_of_stops (fuel : Nat) (stops : Stops isSign input) (scope : Scope) :
    many isSign each fuel input scope = (.ok ([], input), scope) := by
  cases fuel with
  | zero => rfl
  | succ fuel =>
      have noSign : ¬input.head?.any isSign := Bool.not_eq_true _ |>.mpr stops
      rw [many]
      -- To look at the tokens is a step of the reader, which leaves them as they are.
      change (ite _ _ _ : Noting (List α)) input scope = _
      rw [if_neg noSign]
      rfl

theorem many_of_sign (fuel : Nat) (sign : ¬Stops isSign input) (scope : Scope) :
    many isSign each (fuel + 1) input scope =
      (do
        let value ← each
        (value :: ·) <$> many isSign each fuel) input scope := by
  rw [many]
  change (ite _ _ _ : Noting (List α)) input scope = _
  rw [if_pos (Bool.not_eq_false _ |>.mp sign)]

end

/-! ## Doing what a parser does -/

/-- The tokens that are left after reading, or from the one on that could not be used. -/
def tokensLeft : Except ParseFailure (α × List Token) → List Token
  | .ok (_, rest) => rest
  | .error failure => failure.remaining

/-- An outcome is what was to be found, and the placeholders among the tokens taken are
noted. -/
def Notes
    (scope : Scope)
    (input : List Token)
    (found : Except ParseFailure (α × List Token))
    (outcome : Except ParseFailure (α × List Token) × Scope) : Prop :=
  ∃ taken, input = taken ++ tokensLeft found ∧ outcome = (found, scope.mention taken)

/-- A reader finds what a parser finds, and notes the placeholders among the tokens that
the parser takes. -/
def Tracks
    (references : References)
    (reader : Noting α)
    (parser : List Token → Except ParseFailure (α × List Token)) : Prop :=
  ∀ scope input, scope.references = references →
    Notes scope input (parser input) (reader input scope)

end Noting

namespace Scope

@[simp]
theorem mention_nil (scope : Scope) : scope.mention [] = scope := by
  simp [mention, namesIn, valuesIn]

/-- Tokens may be noted in two goes. -/
theorem mention_append (scope : Scope) (first second : List Token) :
    scope.mention (first ++ second) = (scope.mention first).mention second := by
  simp [mention, namesIn, valuesIn]

/-- Nothing is noted for a token that is no placeholder. -/
theorem mention_cons_of_not_placeholder
    {token : Token}
    (scope : Scope)
    (tokens : List Token)
    (plain : token.isPlaceholder = false) :
    scope.mention (token :: tokens) = scope.mention tokens := by
  cases token <;> first | rfl | cases plain

end Scope

namespace Noting

variable
    {α β γ : Type}
    {scope : Scope}
    {references : References}
    {input : List Token}

theorem bind_of_ok
    {first : Noting α}
    {next : α → Noting β}
    {value : α}
    {rest : List Token}
    {later : Scope}
    (read : first input scope = (.ok (value, rest), later)) :
    (first >>= next) input scope = next value rest later := by
  simp only [bind, StateT.bind, ExceptT.bind, ExceptT.mk, ExceptT.bindCont, read]

theorem bind_of_error
    {first : Noting α}
    {next : α → Noting β}
    {failure : ParseFailure}
    {later : Scope}
    (failed : first input scope = (.error failure, later)) :
    (first >>= next) input scope = (.error failure, later) := by
  simp only [bind, StateT.bind, ExceptT.bind, ExceptT.mk, ExceptT.bindCont, failed]
  rfl

/-- What goes on behind a first part reads the tokens that are left, and notes them after
the others. -/
theorem Notes.bind
    {first : Noting α}
    {next : α → Noting β}
    {found : Except ParseFailure (α × List Token)}
    {goOn : α × List Token → Except ParseFailure (β × List Token)}
    (notes : Notes scope input found (first input scope))
    (nextNotes : ∀ value rest later, later.references = scope.references →
      Notes later rest (goOn (value, rest)) (next value rest later)) :
    Notes scope input (found >>= goOn) ((first >>= next) input scope) := by
  rcases notes with ⟨taken, split, outcome⟩
  cases found with
  | error failure =>
      rw [bind_of_error outcome]
      exact ⟨taken, split, rfl⟩
  | ok parsed =>
      rcases parsed with ⟨value, rest⟩
      rcases nextNotes value rest (scope.mention taken) rfl with
        ⟨more, splitRest, nextOutcome⟩
      refine ⟨taken ++ more, ?_, ?_⟩
      · rw [split, List.append_assoc, ok_bind, ← splitRest]
        rfl
      · rw [bind_of_ok outcome, nextOutcome, Scope.mention_append]
        rfl

/-- A token that is no placeholder is taken without a note. -/
theorem Notes.cons
    {token : Token}
    {found : Except ParseFailure (α × List Token)}
    {outcome : Except ParseFailure (α × List Token) × Scope}
    (plain : token.isPlaceholder = false)
    (notes : Notes scope input found outcome) :
    Notes scope (token :: input) found outcome := by
  rcases notes with ⟨taken, split, outcome⟩
  refine ⟨token :: taken, congrArg (token :: ·) split, ?_⟩
  rw [Scope.mention_cons_of_not_placeholder scope taken plain]
  exact outcome

/-- Where nothing is taken, nothing is noted. -/
theorem Notes.still
    {found : Except ParseFailure (α × List Token)}
    (left : tokensLeft found = input) :
    Notes scope input found (found, scope) := by
  refine ⟨[], left.symm, ?_⟩
  rw [Scope.mention_nil]

namespace Tracks

variable {reader : Noting α} {parser : List Token → Except ParseFailure (α × List Token)}

theorem pure (value : α) :
    Tracks references (pure value) fun input => .ok (value, input) :=
  fun _ _ _ => .still rfl

theorem bind
    {next : α → Noting β}
    {goOn : α × List Token → Except ParseFailure (β × List Token)}
    (tracks : Tracks references reader parser)
    (nextTracks : ∀ value, Tracks references (next value) fun rest => goOn (value, rest)) :
    Tracks references (reader >>= next) fun input => parser input >>= goOn := by
  intro scope input same
  apply (tracks scope input same).bind
  intro value rest later kept
  exact nextTracks value later rest (kept.trans same)

theorem map
    (tracks : Tracks references reader parser)
    (change : α → β) :
    Tracks references (change <$> reader) fun input => do
      let (value, rest) ← parser input
      return (change value, rest) := by
  rw [map_eq_pure_bind]
  exact tracks.bind fun value => .pure (change value)

theorem expect
    {token : Token}
    (plain : token.isPlaceholder = false) :
    Tracks references (expect token) (Token.expect token) := by
  intro scope input _
  cases input with
  | nil => exact .still rfl
  | cons first rest =>
      by_cases same : first = token
      · subst same
        change Notes _ _ (Token.expect first (first :: rest))
          (Token.expect first (first :: rest), _)
        rw [Token.expect_cons]
        exact .cons plain (.still rfl)
      · apply Notes.still
        rw [Token.expect, if_neg same]
        rfl

theorem behind
    (sign : Token)
    (plain : sign.isPlaceholder = false)
    (tracks : Tracks references reader parser) :
    Tracks references (Noting.behind sign reader) (sign.behind parser) :=
  (expect plain).bind fun _ => tracks

theorem enclosed (tracks : Tracks references reader parser) :
    Tracks references (Noting.enclosed reader) (parseEnclosed parser) := by
  apply (expect rfl).bind
  intro _
  apply tracks.bind
  intro value
  apply (expect rfl).bind
  intro _
  exact .pure value

theorem many
    {isSign : Token → Bool}
    (tracks : Tracks references reader parser)
    (fuel : Nat) :
    Tracks references (Noting.many isSign reader fuel) (parseMany isSign parser fuel) := by
  induction fuel with
  | zero => exact .pure []
  | succ fuel ih =>
      intro scope input same
      by_cases stops : Stops isSign input
      · rw [parseMany_of_stops _ stops, many_of_stops _ stops]
        exact .still rfl
      · rw [parseMany_of_sign fuel stops, many_of_sign fuel stops]
        apply tracks.bind
        · intro value
          exact ih.map (value :: ·)
        · exact same

theorem sequence
    {head : Noting β}
    {parseHead : List Token → Except ParseFailure (β × List Token)}
    {isSign : Token → Bool}
    (front : Tracks references head parseHead)
    (tracks : Tracks references reader parser)
    (build : β → List α → γ) :
    Tracks references (Noting.sequence head isSign reader build)
      (parseSequence parseHead isSign parser build) := by
  apply front.bind
  intro value scope input same
  exact (tracks.many input.length).map (build value) scope input same

end Tracks

/-! ## The readers and the parsers -/

section

variable (references : References)

theorem tracks_name : Tracks references name references.parseName := by
  rintro scope input rfl
  unfold name
  split
  · exact .cons rfl (.still rfl)
  · rename_i word rest
    dsimp only [References.parseName]
    cases scope.references.names.find? ("#" ++ word) with
    | some name =>
        refine ⟨[.name word], rfl, ?_⟩
        simp [Scope.mention, Scope.namesIn, Scope.valuesIn]
    | none => exact .still rfl
  · rw [References.parseName]
    · exact .still rfl
    all_goals assumption

theorem tracks_step : Tracks references step references.parseStep := by
  intro scope input same
  unfold step
  split
  · exact .cons rfl (tracks_name references scope _ same)
  · rename_i position rest
    apply Notes.cons rfl
    apply Notes.cons rfl
    exact (Tracks.pure (PathElement.index position)).behind .closeBracket rfl scope rest same
  · rw [References.parseStep]
    · exact .cons rfl (.still rfl)
    all_goals assumption
  · rw [References.parseStep]
    · exact .still rfl
    all_goals assumption

theorem tracks_path : Tracks references path references.parsePath := by
  rw [References.parsePath_eq_parseSequence]
  exact (tracks_name references).sequence (tracks_step references) _

theorem tracks_operand : Tracks references operand references.parseOperand := by
  rintro scope input rfl
  unfold operand
  split
  · rename_i word rest
    dsimp only [References.parseOperand]
    cases scope.references.values.find? (":" ++ word) with
    | some value =>
        refine ⟨[.value word], rfl, ?_⟩
        simp [Scope.mention, Scope.namesIn, Scope.valuesIn]
    | none => exact .still rfl
  · rename_i rest
    rw [References.parseOperand_size]
    apply Notes.cons rfl
    exact (tracks_path _).enclosed.map Operand.size _ _ rfl
  · rename_i noValue noSize
    rw [References.parseOperand]
    · exact (tracks_path _).map Operand.path _ _ rfl
    · exact noValue
    · exact noSize

theorem tracks_operands : Tracks references operands references.parseOperands := by
  rw [References.parseOperands_eq_parseSequence]
  have operand := tracks_operand references
  exact operand.sequence (operand.behind .comma rfl) _

theorem tracks_test (predicate : Predicate) :
    Tracks references (test predicate) (references.parseTest predicate) := by
  intro scope input same
  rw [References.parseTest_eq]
  apply (tracks_operands references).enclosed.bind
  · intro arguments scope input _
    apply Notes.still
    dsimp only [References.checkArguments]
    split
    · rfl
    · split <;> rfl
  · exact same

theorem tracks_relation (left : Operand) :
    Tracks references (relation left) (references.parseRelation left) := by
  intro scope input same
  have operand := tracks_operand references
  unfold relation
  split
  · rename_i operator rest
    apply Notes.cons rfl
    exact operand.map (Condition.compare left operator) _ _ same
  · rename_i rest
    apply Notes.cons rfl
    apply operand.bind
    · intro low
      apply (Tracks.expect rfl).bind
      intro _
      exact operand.map (Condition.between left low)
    · exact same
  · rename_i rest
    rw [References.parseRelation_among]
    apply Notes.cons rfl
    exact (tracks_operands _).enclosed.map (Condition.among left) _ _ same
  · rw [References.parseRelation]
    · exact .still rfl
    all_goals assumption

section

variable
    {inner : Noting Condition}
    {parseInner : List Token → Except ParseFailure (Condition × List Token)}

theorem tracks_primary (nested : Tracks references inner parseInner) :
    Tracks references (primary inner) (references.parsePrimary parseInner) := by
  intro scope input same
  unfold primary
  split
  · rw [References.parsePrimary_openParenthesis]
    exact nested.enclosed _ _ same
  · rename_i predicate rest
    exact .cons rfl (tracks_test references predicate _ _ same)
  · rename_i noParenthesis noPredicate
    rw [References.parsePrimary]
    · apply (tracks_operand references).bind
      · exact tracks_relation references
      · exact same
    · exact noParenthesis
    · exact noPredicate

theorem tracks_negation (nested : Tracks references inner parseInner) :
    Tracks references (negation inner) (references.parseNegation parseInner) := by
  intro scope input same
  fun_induction References.parseNegation references parseInner input with
  | case1 rest ih =>
      have behind : Notes scope rest _ (negation inner rest scope) := ih
      exact .cons rfl (behind.bind fun condition rest later _ => .still rfl)
  | case2 input noNot =>
      rw [negation]
      · exact tracks_primary references nested _ _ same
      · exact noNot

theorem tracks_chain
    (word : Token)
    (connective : Connective)
    (plain : word.isPlaceholder = false)
    (part : Tracks references inner parseInner) :
    Tracks references (chain word connective inner)
      (References.parseChain word connective parseInner) := by
  rw [References.parseChain_eq_parseSequence]
  exact part.sequence (part.behind word plain) _

end

theorem tracks_condition (depth : Nat) :
    Tracks references (condition depth) (references.parseCondition depth) := by
  induction depth with
  | zero => exact fun _ _ _ => .still rfl
  | succ depth ih =>
      have negation := tracks_negation references ih
      have conjunction := tracks_chain references .and .and rfl negation
      exact tracks_chain references .or .or rfl conjunction

theorem tracks_paths : Tracks references paths references.parsePaths := by
  have path := tracks_path references
  exact path.sequence (path.behind .comma rfl) _

end

/-! ## Whole expressions -/

/-- Read what stands before the end of the input. -/
def ended (reader : Noting α) : Noting α := do
  let value ← reader
  expect .endOfInput
  return value

/-- Read a text to its end; the reader is told how many tokens there are. -/
def whole
    (reader : Nat → Noting α)
    (scope : Scope)
    (text : String) :
    Except ExpressionError α × Scope :=
  match References.scanExpression text with
  | .error failure => (.error failure.error, scope)
  | .ok tokens =>
      match ended (reader tokens.length) tokens scope with
      | (.ok (value, _), later) => (.ok value, later)
      | (.error failure, later) => (.error failure.error, later)

/-- Parse what stands before the end of the input. -/
def parseEnded
    (parser : List Token → Except ParseFailure (α × List Token))
    (input : List Token) :
    Except ParseFailure (α × List Token) := do
  let (value, rest) ← parser input
  let (_, rest) ← Token.expect .endOfInput rest
  return (value, rest)

theorem map_fst_parseEnded
    (parser : List Token → Except ParseFailure (α × List Token))
    (input : List Token) :
    (parseEnded parser input).map Prod.fst = do
      let (value, rest) ← parser input
      let (_, _) ← Token.expect .endOfInput rest
      return value := by
  unfold parseEnded
  cases parser input with
  | error failure => rfl
  | ok parsed =>
      simp only [ok_bind]
      cases Token.expect .endOfInput parsed.2 <;> rfl

theorem Tracks.ended
    {reader : Noting α}
    {parser : List Token → Except ParseFailure (α × List Token)}
    (tracks : Tracks references reader parser) :
    Tracks references (Noting.ended reader) (parseEnded parser) := by
  apply tracks.bind
  intro value
  apply (Tracks.expect rfl).bind
  intro _
  exact .pure value

/-- Once the end of the input is found, no token is left. -/
theorem rest_eq_nil_of_parseEnded
    {reader : Noting α}
    {parser : List Token → Except ParseFailure (α × List Token)}
    {lexemes rest : List Token}
    {value : α}
    (tracks : Tracks scope.references reader parser)
    (noEnd : Token.endOfInput ∉ lexemes)
    (parsed : parseEnded parser (lexemes ++ [.endOfInput]) = .ok (value, rest)) :
    rest = [] := by
  rcases bind_eq_ok.mp parsed with ⟨⟨_, behind⟩, parsedValue, ended⟩
  rcases bind_eq_ok.mp ended with ⟨⟨_, _⟩, expected, ⟨⟩⟩
  rw [Token.expect_eq_ok_iff] at expected
  subst expected
  rcases tracks scope _ rfl with ⟨taken, split, -⟩
  rw [parsedValue] at split
  have noOther : Token.endOfInput ∉ ([] : List Token) := List.not_mem_nil
  exact ((List.append_cons_inj_of_notMem noEnd noOther).mp split).2.2.symm

/-- A text is read by a reader as by the parser that it tracks. -/
theorem whole_eq_parse
    {reader : Nat → Noting α}
    {part : References → Nat → List Token → Except ParseFailure (α × List Token)}
    {parser : References → List Token → Except ParseFailure α}
    (tracks : ∀ references count, Tracks references (reader count) (part references count))
    (ends : ∀ references tokens,
      parser references tokens = (parseEnded (part references tokens.length) tokens).map Prod.fst)
    (scope : Scope)
    (text : String) :
    whole reader scope text = scope.parse parser text := by
  unfold whole Scope.parse
  cases scanned : References.scanExpression text with
  | error failure => rfl
  | ok tokens =>
      rcases References.scanExpression_eq_ok_iff.mp scanned with ⟨lexemes, -, rfl, spelled⟩
      have part := tracks scope.references (lexemes ++ [Token.endOfInput]).length
      rcases part.ended scope (lexemes ++ [.endOfInput]) rfl with ⟨taken, split, outcome⟩
      dsimp only
      rw [ends, outcome]
      cases found : parseEnded _ (lexemes ++ [Token.endOfInput]) with
      | error failure =>
          -- The tokens taken are those that do not remain, which is how the parser counts them.
          rw [found] at split
          dsimp only [Except.map]
          rw [split]
          simp [tokensLeft]
      | ok parsed =>
          rw [found] at split
          have none := rest_eq_nil_of_parseEnded part spelled.endOfInput_not_mem found
          dsimp only [Except.map]
          rw [split, tokensLeft, none, List.append_nil]

end Noting

/-- A condition is read as if each placeholder were noted when it is replaced. -/
theorem Scope.condition_eq_whole (scope : Scope) (text : String) :
    scope.condition text = Noting.whole Noting.condition scope text := by
  symm
  apply Noting.whole_eq_parse Noting.tracks_condition
  intro references tokens
  rw [Noting.map_fst_parseEnded]
  rfl

/-- A projection is read as if each placeholder were noted when it is replaced. -/
theorem Scope.projection_eq_whole (scope : Scope) (text : String) :
    scope.projection text = Noting.whole (fun _ => Noting.paths) scope text := by
  symm
  apply Noting.whole_eq_parse fun references _ => Noting.tracks_paths references
  intro references tokens
  rw [Noting.map_fst_parseEnded, References.projection_eq_parsePaths]

end ItemTable
