import ItemTable.Expression.Scope
import ItemTable.Proofs.Expression.Grammar
import ItemTable.Proofs.Expression.Lexing
import ItemTable.Proofs.Expression.Reading

/-!
# Parsing is deriving

Each parser recognizes one kind of phrases: what it reads from the front of the tokens
is the meaning of a phrase there, and it reads every phrase that nothing goes on with.
The parsers of sequences all read one part after the other as long as a sign follows.
-/

namespace ItemTable

/-- A parser finds the meanings of phrases, of all phrases among so many tokens. -/
structure Recognizes
    {phrase α : Type}
    (bound : Nat)
    (parser : List Token → Except ParseFailure (α × List Token))
    (tokens : phrase → List Token)
    (meaning? : phrase → Option α)
    (goesOn : Token → Bool) : Prop where
  sound :
    ∀ {input : List Token} {value : α} {rest : List Token},
      parser input = .ok (value, rest) →
      ∃ found, input = tokens found ++ rest ∧ meaning? found = some value
  complete :
    ∀ {found : phrase} {value : α} {rest : List Token},
      meaning? found = some value → Stops goesOn rest →
      (tokens found ++ rest).length ≤ bound →
      parser (tokens found ++ rest) = .ok (value, rest)

namespace Token

theorem expect_eq_ok_iff
    {token : Token}
    {input rest : List Token}
    {done : Unit} :
    expect token input = .ok (done, rest) ↔ input = token :: rest := by
  constructor
  · intro expected
    cases input with
    | nil => cases expected
    | cons first input =>
        rw [expect] at expected
        split at expected
        · rename_i same
          cases expected
          rw [same]
        · cases expected
  · rintro rfl
    exact expect_cons token rest

/-- Read what stands behind a sign. -/
def behind
    {α : Type}
    (sign : Token)
    (parser : List Token → Except ParseFailure (α × List Token))
    (input : List Token) :
    Except ParseFailure (α × List Token) := do
  let (_, rest) ← expect sign input
  parser rest

end Token

/-- Read what stands in parentheses. -/
def parseEnclosed
    {α : Type}
    (parser : List Token → Except ParseFailure (α × List Token))
    (input : List Token) :
    Except ParseFailure (α × List Token) := do
  let (_, rest) ← Token.expect .openParenthesis input
  let (value, rest) ← parser rest
  let (_, rest) ← Token.expect .closeParenthesis rest
  return (value, rest)

/-- Read one part after the other as long as a sign follows. -/
def parseMany
    {α : Type}
    (isSign : Token → Bool)
    (each : List Token → Except ParseFailure (α × List Token)) :
    Nat → List Token → Except ParseFailure (List α × List Token)
  | fuel + 1, input =>
      if input.head?.any isSign then do
        let (value, rest) ← each input
        let (values, rest) ← parseMany isSign each fuel rest
        return (value :: values, rest)
      else
        .ok ([], input)
  | 0, input => .ok ([], input)

theorem parseEnclosed_bind
    {α γ : Type}
    (parser : List Token → Except ParseFailure (α × List Token))
    (input : List Token)
    (next : α × List Token → Except ParseFailure γ) :
    (do
      let (_, rest) ← Token.expect .openParenthesis input
      let (value, rest) ← parser rest
      let (_, rest) ← Token.expect .closeParenthesis rest
      next (value, rest)) = parseEnclosed parser input >>= next := by
  rw [parseEnclosed]
  cases Token.expect .openParenthesis input with
  | error failure => rfl
  | ok opened =>
      simp only [ok_bind]
      cases parser opened.2 with
      | error failure => rfl
      | ok parsed =>
          simp only [ok_bind]
          cases Token.expect .closeParenthesis parsed.2 <;> rfl

section

variable
    {α : Type}
    {isSign : Token → Bool}
    {each : List Token → Except ParseFailure (α × List Token)}
    {input : List Token}

theorem parseMany_of_stops (fuel : Nat) (stops : Stops isSign input) :
    parseMany isSign each fuel input = .ok ([], input) := by
  cases fuel with
  | zero => rfl
  | succ fuel =>
      have noSign : ¬input.head?.any isSign := Bool.not_eq_true _ |>.mpr stops
      rw [parseMany, if_neg noSign]

theorem parseMany_of_sign (fuel : Nat) (sign : ¬Stops isSign input) :
    parseMany isSign each (fuel + 1) input = do
      let (value, rest) ← each input
      let (values, rest) ← parseMany isSign each fuel rest
      return (value :: values, rest) := by
  rw [parseMany, if_pos (Bool.not_eq_false _ |>.mp sign)]

/-- A loop that reads parts as long as a sign follows does so until the tokens run out. -/
theorem loop_eq_parseMany
    {loop : Nat → List Token → Except ParseFailure (List α × List Token)}
    (stops : ∀ fuel input, Stops isSign input → loop fuel input = .ok ([], input))
    (steps : ∀ fuel input, ¬Stops isSign input →
      loop (fuel + 1) input = do
        let (value, rest) ← each input
        let (values, rest) ← loop fuel rest
        return (value :: values, rest))
    (shorter : ∀ input value rest, each input = .ok (value, rest) → rest.length < input.length)
    {fuel : Nat}
    (enough : input.length ≤ fuel) :
    loop fuel input = parseMany isSign each fuel input := by
  induction fuel generalizing input with
  | zero =>
      have atEnd : Stops isSign input := by
        rw [List.length_eq_zero_iff.mp (Nat.le_zero.mp enough)]
        rfl
      rw [stops _ _ atEnd, parseMany_of_stops _ atEnd]
  | succ fuel ih =>
      by_cases atEnd : Stops isSign input
      · rw [stops _ _ atEnd, parseMany_of_stops _ atEnd]
      · rw [steps _ _ atEnd, parseMany_of_sign _ atEnd]
        apply bind_congr_of_ok
        rintro ⟨value, rest⟩ parsed
        have less := shorter _ _ _ parsed
        dsimp only
        rw [ih (by omega)]

end

/-- Read a first part and those behind it. -/
def parseSequence
    {α β γ : Type}
    (head : List Token → Except ParseFailure (β × List Token))
    (isSign : Token → Bool)
    (each : List Token → Except ParseFailure (α × List Token))
    (build : β → List α → γ)
    (input : List Token) :
    Except ParseFailure (γ × List Token) := do
  let (value, rest) ← head input
  let (values, rest) ← parseMany isSign each rest.length rest
  return (build value values, rest)

namespace Recognizes

variable
    {phrase α : Type}
    {bound : Nat}
    {parser : List Token → Except ParseFailure (α × List Token)}
    {tokens : phrase → List Token}
    {meaning? : phrase → Option α}
    {isSign goesOn ending : Token → Bool}

theorem behind
    (recognizes : Recognizes bound parser tokens meaning? goesOn)
    (sign : Token) :
    Recognizes bound (sign.behind parser) (fun found => sign :: tokens found) meaning?
      goesOn := by
  constructor
  · intro input value rest parsed
    rcases bind_eq_ok.mp parsed with ⟨⟨_, behind⟩, expected, parsedBehind⟩
    rw [Token.expect_eq_ok_iff] at expected
    subst expected
    rcases recognizes.sound parsedBehind with ⟨found, rfl, meant⟩
    exact ⟨found, rfl, meant⟩
  · intro found value rest meant stops small
    refine bind_eq_ok.mpr ⟨_, Token.expect_cons _ _, ?_⟩
    exact recognizes.complete meant stops (Nat.le_of_succ_le small)

theorem enclosed
    (recognizes : Recognizes bound parser tokens meaning? goesOn)
    (closes : goesOn .closeParenthesis = false) :
    Recognizes (bound + 1) (parseEnclosed parser)
      (fun found => .openParenthesis :: (tokens found ++ [.closeParenthesis])) meaning?
      fun _ => false := by
  constructor
  · intro input value rest parsed
    rcases bind_eq_ok.mp parsed with ⟨⟨_, inside⟩, opened, parsedBehind⟩
    rcases bind_eq_ok.mp parsedBehind with ⟨⟨_, behind⟩, parsedInside, last⟩
    rcases bind_eq_ok.mp last with ⟨⟨_, _⟩, closed, ⟨⟩⟩
    rw [Token.expect_eq_ok_iff] at opened closed
    subst opened closed
    rcases recognizes.sound parsedInside with ⟨found, rfl, meant⟩
    refine ⟨found, ?_, meant⟩
    rw [List.cons_append, List.append_assoc, List.singleton_append]
  · intro found value rest meant _ small
    rw [List.cons_append, List.append_assoc, List.singleton_append] at small ⊢
    have stops : Stops goesOn (.closeParenthesis :: rest) := closes
    have parsed := recognizes.complete meant stops (Nat.le_of_succ_le_succ small)
    rw [parseEnclosed, Token.expect_cons, ok_bind]
    dsimp only
    rw [parsed, ok_bind]
    dsimp only
    rw [Token.expect_cons]
    rfl

theorem mapM_cons_eq_some_iff
    {first : phrase}
    {others : List phrase}
    {values : List α} :
    (first :: others).mapM meaning? = some values ↔
      ∃ value more, meaning? first = some value ∧ others.mapM meaning? = some more ∧
        values = value :: more := by
  simp only [List.mapM_cons, Option.bind_eq_bind, Option.bind_eq_some_iff, Option.pure_def,
    Option.some.injEq]
  constructor
  · rintro ⟨value, meant, more, meantOthers, rfl⟩
    exact ⟨value, more, meant, meantOthers, rfl⟩
  · rintro ⟨value, more, meant, meantOthers, rfl⟩
    exact ⟨value, meant, more, meantOthers, rfl⟩

theorem sound_many
    (each : Recognizes bound parser tokens meaning? goesOn)
    {fuel : Nat}
    {input rest : List Token}
    {values : List α}
    (parsed : parseMany isSign parser fuel input = .ok (values, rest)) :
    ∃ phrases : List phrase,
      input = phrases.flatMap tokens ++ rest ∧ phrases.mapM meaning? = some values := by
  induction fuel generalizing input values with
  | zero =>
      cases parsed
      exact ⟨[], rfl, rfl⟩
  | succ fuel ih =>
      rw [parseMany] at parsed
      split at parsed
      · rcases bind_eq_ok.mp parsed with ⟨⟨value, behind⟩, parsedFirst, others⟩
        rcases bind_eq_ok.mp others with ⟨⟨more, _⟩, parsedOthers, ⟨⟩⟩
        rcases each.sound parsedFirst with ⟨found, rfl, meant⟩
        rcases ih parsedOthers with ⟨phrases, rfl, meantOthers⟩
        refine ⟨found :: phrases, ?_, mapM_cons_eq_some_iff.mpr ⟨_, _, meant, meantOthers, rfl⟩⟩
        rw [List.flatMap_cons, List.append_assoc]
      · cases parsed
        exact ⟨[], rfl, rfl⟩

/-- All parts behind signs are read if the tokens do not run out. -/
theorem complete_many
    (each : Recognizes bound parser tokens meaning? goesOn)
    (signed : Signed tokens isSign goesOn ending)
    {phrases : List phrase}
    {fuel : Nat}
    {rest : List Token}
    {values : List α}
    (meant : phrases.mapM meaning? = some values)
    (ends : Stops ending rest)
    (small : (phrases.flatMap tokens ++ rest).length ≤ bound)
    (enough : (phrases.flatMap tokens ++ rest).length ≤ fuel) :
    parseMany isSign parser fuel (phrases.flatMap tokens ++ rest) = .ok (values, rest) := by
  induction phrases generalizing fuel values with
  | nil =>
      cases meant
      exact parseMany_of_stops fuel (signed.stops_iff.mp ends).1
  | cons first others ih =>
      rcases mapM_cons_eq_some_iff.mp meant with ⟨value, more, meantFirst, meantOthers, rfl⟩
      rw [List.flatMap_cons, List.append_assoc] at small enough ⊢
      have parsed := each.complete meantFirst (signed.stops others ends) small
      have longer := signed.length_pos first
      rw [List.length_append] at enough small
      cases fuel with
      | zero => omega
      | succ fuel =>
          rw [parseMany_of_sign fuel (signed.not_stops first _), parsed, ok_bind]
          dsimp only
          rw [ih meantOthers (by omega) (by omega)]
          rfl

/-- Parts behind signs are recognized behind a first part. -/
theorem sequence
    {first β γ : Type}
    {head : List Token → Except ParseFailure (β × List Token)}
    {headTokens : first → List Token}
    {headMeaning? : first → Option β}
    (front : Recognizes bound head headTokens headMeaning? goesOn)
    (each : Recognizes bound parser tokens meaning? goesOn)
    (signed : Signed tokens isSign goesOn ending)
    (build : β → List α → γ) :
    Recognizes bound (parseSequence head isSign parser build)
      (fun found : first × List phrase => headTokens found.1 ++ found.2.flatMap tokens)
      (fun found => do
        let value ← headMeaning? found.1
        let values ← found.2.mapM meaning?
        return build value values)
      ending := by
  constructor
  · intro input result rest parsed
    rcases bind_eq_ok.mp parsed with ⟨⟨value, behind⟩, parsedFirst, others⟩
    rcases bind_eq_ok.mp others with ⟨⟨values, _⟩, parsedOthers, ⟨⟩⟩
    rcases front.sound parsedFirst with ⟨found, rfl, meant⟩
    rcases each.sound_many parsedOthers with ⟨phrases, rfl, meantOthers⟩
    refine ⟨(found, phrases), (List.append_assoc _ _ _).symm, ?_⟩
    dsimp only
    rw [meant, meantOthers]
    rfl
  · rintro ⟨found, phrases⟩ result rest meant ends small
    dsimp only at small meant ⊢
    simp only [Option.bind_eq_bind, Option.bind_eq_some_iff, Option.pure_def,
      Option.some.injEq] at meant
    rcases meant with ⟨value, meant, values, meantOthers, rfl⟩
    rw [List.append_assoc] at small ⊢
    refine bind_eq_ok.mpr ⟨_, front.complete meant (signed.stops phrases ends) small, ?_⟩
    rw [List.length_append] at small
    refine bind_eq_ok.mpr ⟨(values, rest), ?_, rfl⟩
    exact each.complete_many signed meantOthers ends (by omega) (Nat.le_refl _)

/-- What is recognized does not depend on how phrases are written down. -/
theorem map
    {other : Type}
    {otherTokens : other → List Token}
    {otherMeaning? : other → Option α}
    (recognizes : Recognizes bound parser tokens meaning? goesOn)
    (make : phrase → other)
    (all : make.Surjective)
    (same : ∀ found, otherTokens (make found) = tokens found)
    (sameMeaning : ∀ found, otherMeaning? (make found) = meaning? found) :
    Recognizes bound parser otherTokens otherMeaning? goesOn := by
  constructor
  · intro input value rest parsed
    rcases recognizes.sound parsed with ⟨found, split, meant⟩
    exact ⟨make found, by rw [same, split], by rw [sameMeaning, meant]⟩
  · intro found value rest meant stops small
    rcases all found with ⟨found, rfl⟩
    rw [sameMeaning] at meant
    rw [same] at small ⊢
    exact recognizes.complete meant stops small

/-- A part behind a sign takes tokens. -/
theorem shorter
    (each : Recognizes bound parser tokens meaning? goesOn)
    (signed : Signed tokens isSign goesOn ending)
    (input : List Token)
    (value : α)
    (rest : List Token)
    (parsed : parser input = .ok (value, rest)) :
    rest.length < input.length := by
  rcases each.sound parsed with ⟨found, rfl, _⟩
  have longer := signed.length_pos found
  rw [List.length_append]
  omega

end Recognizes

namespace References

variable (references : References)

/-! ## Paths -/

theorem recognizes_parseName (bound : Nat) :
    Recognizes bound references.parseName (fun name : NamePhrase => [name.token])
      (fun name => (name.name? references).map .attribute) fun _ => false := by
  constructor
  · intro input element rest parsed
    unfold parseName at parsed
    split at parsed
    · cases parsed
      exact ⟨.identifier _, rfl, rfl⟩
    · dsimp only at parsed
      split at parsed
      · rename_i found
        cases parsed
        exact ⟨.placeholder _, rfl, congrArg (Option.map _) found⟩
      · cases parsed
    · cases parsed
  · intro name element rest meant _ _
    cases name with
    | identifier word =>
        cases meant
        rfl
    | placeholder word =>
        rcases Option.map_eq_some_iff.mp meant with ⟨name, found, rfl⟩
        have resolved : references.names.find? ("#" ++ word) = some name := found
        simp only [NamePhrase.token, List.cons_append, List.nil_append, parseName, resolved]

/-- Read one step of a path. -/
def parseStep : List Token → Except ParseFailure (PathElement × List Token)
  | .dot :: rest => references.parseName rest
  | .openBracket :: .index position :: rest => do
      let (_, rest) ← Token.expect .closeBracket rest
      return (.index position, rest)
  | .openBracket :: rest => Token.refuse "a list index" rest
  | tokens => Token.refuse "a step" tokens

theorem recognizes_parseStep (bound : Nat) :
    Recognizes bound references.parseStep StepPhrase.tokens (StepPhrase.element? references)
      fun _ => false := by
  constructor
  · intro input element rest parsed
    unfold parseStep at parsed
    split at parsed
    · rcases (references.recognizes_parseName bound).sound parsed with ⟨name, rfl, meant⟩
      exact ⟨.field name, rfl, meant⟩
    · rcases bind_eq_ok.mp parsed with ⟨⟨_, behind⟩, expected, ⟨⟩⟩
      rw [Token.expect_eq_ok_iff] at expected
      subst expected
      exact ⟨.index _, rfl, rfl⟩
    · cases parsed
    · cases parsed
  · intro step element rest meant stops small
    cases step with
    | field name =>
        exact (references.recognizes_parseName bound).complete meant stops
          (Nat.le_of_succ_le small)
    | index position =>
        cases meant
        rfl

theorem parseElements_of_stops
    (fuel : Nat)
    (input : List Token)
    (stops : Stops Token.isStep input) :
    references.parseElements fuel input = .ok ([], input) := by
  cases input with
  | nil => cases fuel <;> rfl
  | cons token input => cases token <;> cases fuel <;> first | rfl | cases stops

theorem parseElements_of_sign
    (fuel : Nat)
    (input : List Token)
    (step : ¬Stops Token.isStep input) :
    references.parseElements (fuel + 1) input = do
      let (element, rest) ← references.parseStep input
      let (elements, rest) ← references.parseElements fuel rest
      return (element :: elements, rest) := by
  cases input with
  | nil => exact absurd rfl step
  | cons token rest =>
      cases token with
      | dot => rfl
      | openBracket =>
          cases rest with
          | nil => rfl
          | cons token rest =>
              cases token with
              | index position =>
                  rw [parseElements, parseStep]
                  cases Token.expect .closeBracket rest <;> rfl
              | _ => rfl
      | _ => exact absurd rfl step

theorem parsePath_eq_parseSequence :
    references.parsePath =
      parseSequence references.parseName Token.isStep references.parseStep
        fun element elements => ⟨element :: elements⟩ := by
  funext input
  unfold parsePath parseSequence
  have loop (rest : List Token) := loop_eq_parseMany references.parseElements_of_stops
    references.parseElements_of_sign
    ((references.recognizes_parseStep 0).shorter StepPhrase.signed) (Nat.le_refl rest.length)
  simp only [loop]

theorem recognizes_parsePath (bound : Nat) :
    Recognizes bound references.parsePath PathPhrase.tokens (PathPhrase.path? references)
      Token.isStep := by
  rw [parsePath_eq_parseSequence]
  have parts := (references.recognizes_parseName bound).sequence
    (references.recognizes_parseStep bound) StepPhrase.signed fun element elements =>
      (⟨element :: elements⟩ : Path)
  apply parts.map fun found => ⟨found.1, found.2⟩
  · exact fun phrase => ⟨(phrase.root, phrase.steps), rfl⟩
  · exact fun _ => rfl
  · rintro ⟨root, steps⟩
    dsimp only [PathPhrase.path?]
    cases root.name? references <;> rfl

/-! ## Operands -/

theorem parseOperand_size (rest : List Token) :
    references.parseOperand (.size :: rest) = do
      let (place, rest) ← parseEnclosed references.parsePath rest
      return (.size place, rest) :=
  parseEnclosed_bind references.parsePath rest fun (place, rest) => .ok (Operand.size place, rest)

theorem recognizes_parseOperand (bound : Nat) :
    Recognizes bound references.parseOperand OperandPhrase.tokens
      (OperandPhrase.operand? references) Token.isStep := by
  have path := references.recognizes_parsePath bound
  have enclosed := path.enclosed rfl
  constructor
  · intro input operand rest parsed
    unfold parseOperand at parsed
    split at parsed
    · dsimp only at parsed
      split at parsed
      · rename_i found
        cases parsed
        exact ⟨.literal _, rfl, congrArg (Option.map _) found⟩
      · cases parsed
    · rename_i behind
      change references.parseOperand (.size :: behind) = _ at parsed
      rw [parseOperand_size] at parsed
      rcases bind_eq_ok.mp parsed with ⟨⟨place, _⟩, parsedPath, ⟨⟩⟩
      rcases enclosed.sound parsedPath with ⟨phrase, rfl, meant⟩
      exact ⟨.size phrase, rfl, congrArg (Option.map _) meant⟩
    · rcases bind_eq_ok.mp parsed with ⟨⟨place, _⟩, parsedPath, ⟨⟩⟩
      rcases path.sound parsedPath with ⟨phrase, rfl, meant⟩
      exact ⟨.path phrase, rfl, congrArg (Option.map _) meant⟩
  · intro phrase operand rest meant stops small
    cases phrase with
    | literal word =>
        rcases Option.map_eq_some_iff.mp meant with ⟨value, found, rfl⟩
        simp only [OperandPhrase.tokens, List.cons_append, List.nil_append, parseOperand, found]
    | size place =>
        rcases Option.map_eq_some_iff.mp meant with ⟨_, found, rfl⟩
        have enough := Nat.le_succ_of_le (Nat.le_of_succ_le small)
        have parsed := enclosed.complete found (.of_false rest) enough
        rw [OperandPhrase.tokens, List.cons_append, parseOperand_size, parsed]
        rfl
    | path place =>
        rcases Option.map_eq_some_iff.mp meant with ⟨_, found, rfl⟩
        have parsed := path.complete found stops small
        rw [parseOperand, OperandPhrase.tokens]
        · rw [parsed]
          rfl
        · exact fun word behind => place.tokens_ne rfl _ _
        · exact fun behind => place.tokens_ne rfl _ _

theorem parseMoreOperands_of_stops
    (fuel : Nat)
    (input : List Token)
    (stops : Stops (· == .comma) input) :
    references.parseMoreOperands fuel input = .ok ([], input) := by
  cases input with
  | nil => cases fuel <;> rfl
  | cons token input => cases token <;> cases fuel <;> first | rfl | cases stops

theorem parseMoreOperands_of_sign
    (fuel : Nat)
    (input : List Token)
    (comma : ¬Stops (· == .comma) input) :
    references.parseMoreOperands (fuel + 1) input = do
      let (operand, rest) ← Token.behind .comma references.parseOperand input
      let (operands, rest) ← references.parseMoreOperands fuel rest
      return (operand :: operands, rest) := by
  cases input with
  | nil => exact absurd rfl comma
  | cons token input =>
      cases token with
      | comma => rfl
      | _ => exact absurd rfl comma

theorem parseOperands_eq_parseSequence :
    references.parseOperands =
      parseSequence references.parseOperand (· == .comma)
        (Token.behind .comma references.parseOperand) List.cons := by
  funext input
  unfold parseOperands parseSequence
  have commas := (references.recognizes_parseOperand 0).behind .comma
  have loop (rest : List Token) := loop_eq_parseMany references.parseMoreOperands_of_stops
    references.parseMoreOperands_of_sign (commas.shorter OperandPhrase.signed)
    (Nat.le_refl rest.length)
  simp only [loop]

theorem recognizes_parseOperands (bound : Nat) :
    Recognizes bound references.parseOperands OperandPhrases.tokens
      (OperandPhrases.operands? references) Token.isStepOrComma := by
  rw [parseOperands_eq_parseSequence]
  have operand := references.recognizes_parseOperand bound
  have parts := operand.sequence (operand.behind .comma) OperandPhrase.signed List.cons
  apply parts.map fun found => ⟨found.1, found.2⟩
  · exact fun phrase => ⟨(phrase.first, phrase.others), rfl⟩
  · exact fun _ => rfl
  · exact fun _ => rfl

theorem recognizes_parseEnclosed_parseOperands (bound : Nat) :
    Recognizes (bound + 1) (parseEnclosed references.parseOperands)
      (fun found : OperandPhrases => .openParenthesis :: (found.tokens ++ [.closeParenthesis]))
      (OperandPhrases.operands? references) fun _ => false :=
  (references.recognizes_parseOperands bound).enclosed rfl

/-! ## Conditions without connectives -/

/-- The predicate of arguments that it accepts. -/
def checkArguments
    (predicate : Predicate)
    (arguments : List Operand)
    (rest : List Token) :
    Except ParseFailure (Condition × List Token) :=
  if arguments.length ≠ predicate.arity then
    .error ⟨.wrongArity predicate arguments.length, rest⟩
  else
    match arguments with
    | .path _ :: _ => .ok (.test predicate arguments, rest)
    | _ => .error ⟨.notAPath predicate, rest⟩

theorem checkArguments_eq_ok_iff
    {predicate : Predicate}
    {arguments : List Operand}
    {rest behind : List Token}
    {condition : Condition} :
    checkArguments predicate arguments rest = .ok (condition, behind) ↔
      predicate.accepts arguments ∧ condition = .test predicate arguments ∧ behind = rest := by
  unfold checkArguments
  split
  · rename_i wrong
    simp [Predicate.accepts, wrong]
  · rename_i right
    have number : arguments.length = predicate.arity := not_not.mp right
    split
    · simp [Predicate.accepts, number, eq_comm]
    · rename_i noPath
      have refused : predicate.accepts arguments = false := by
        cases arguments with
        | nil => exact Bool.and_false _
        | cons argument others =>
            cases argument with
            | path place => exact absurd rfl (noPath place others)
            | value | size => exact Bool.and_false _
      simp [refused]

theorem parseTest_eq (predicate : Predicate) (input : List Token) :
    references.parseTest predicate input =
      parseEnclosed references.parseOperands input >>= fun (arguments, rest) =>
        checkArguments predicate arguments rest :=
  parseEnclosed_bind references.parseOperands input fun (arguments, rest) =>
    checkArguments predicate arguments rest

theorem recognizes_parseTest (bound : Nat) (predicate : Predicate) :
    Recognizes (bound + 1) (references.parseTest predicate)
      (fun found : OperandPhrases => .openParenthesis :: (found.tokens ++ [.closeParenthesis]))
      (fun found => do
        let arguments ← found.operands? references
        if predicate.accepts arguments then
          some (Condition.test predicate arguments)
        else
          none)
      fun _ => false := by
  have enclosed := references.recognizes_parseEnclosed_parseOperands bound
  constructor
  · intro input condition rest parsed
    rw [parseTest_eq] at parsed
    rcases bind_eq_ok.mp parsed with ⟨⟨arguments, behind⟩, parsedArguments, checked⟩
    rcases enclosed.sound parsedArguments with ⟨found, rfl, meant⟩
    rcases checkArguments_eq_ok_iff.mp checked with ⟨accepted, rfl, rfl⟩
    refine ⟨found, rfl, ?_⟩
    rw [meant]
    exact if_pos accepted
  · intro found condition rest meant stops small
    rcases Option.bind_eq_some_iff.mp meant with ⟨arguments, meantArguments, checked⟩
    rw [parseTest_eq, enclosed.complete meantArguments stops small, ok_bind]
    apply checkArguments_eq_ok_iff.mpr
    split at checked
    · rename_i accepted
      cases checked
      exact ⟨accepted, rfl, rfl⟩
    · cases checked

theorem parseRelation_among (left : Operand) (rest : List Token) :
    references.parseRelation left (.among :: rest) = do
      let (candidates, rest) ← parseEnclosed references.parseOperands rest
      return (.among left candidates, rest) :=
  parseEnclosed_bind references.parseOperands rest fun (candidates, rest) =>
    .ok (Condition.among left candidates, rest)

theorem recognizes_parseRelation (bound : Nat) (left : Operand) :
    Recognizes bound (references.parseRelation left) RelationPhrase.tokens
      (RelationPhrase.condition? references left) Token.isStep := by
  have operand := references.recognizes_parseOperand bound
  have enclosed := references.recognizes_parseEnclosed_parseOperands bound
  constructor
  · intro input condition rest parsed
    unfold parseRelation at parsed
    split at parsed
    · rcases bind_eq_ok.mp parsed with ⟨⟨right, _⟩, parsedRight, ⟨⟩⟩
      rcases operand.sound parsedRight with ⟨found, rfl, meant⟩
      refine ⟨.compare _ found, rfl, ?_⟩
      rw [RelationPhrase.condition?, meant]
      rfl
    · rcases bind_eq_ok.mp parsed with ⟨⟨low, _⟩, parsedLow, parsedBehind⟩
      rcases bind_eq_ok.mp parsedBehind with ⟨⟨_, behind⟩, joined, last⟩
      rcases bind_eq_ok.mp last with ⟨⟨high, _⟩, parsedHigh, ⟨⟩⟩
      rw [Token.expect_eq_ok_iff] at joined
      subst joined
      rcases operand.sound parsedLow with ⟨lowest, rfl, meant⟩
      rcases operand.sound parsedHigh with ⟨highest, rfl, meantHigh⟩
      refine ⟨.between lowest highest, ?_, ?_⟩
      · rw [RelationPhrase.tokens, List.cons_append, List.append_assoc, List.cons_append]
      · rw [RelationPhrase.condition?, meant, meantHigh]
        rfl
    · rename_i behind
      change references.parseRelation left (.among :: behind) = _ at parsed
      rw [parseRelation_among] at parsed
      rcases bind_eq_ok.mp parsed with ⟨⟨candidates, _⟩, parsedCandidates, ⟨⟩⟩
      rcases enclosed.sound parsedCandidates with ⟨found, rfl, meant⟩
      refine ⟨.among found, rfl, ?_⟩
      rw [RelationPhrase.condition?, meant]
      rfl
    · cases parsed
  · intro found condition rest meant stops small
    cases found with
    | compare operator right =>
        rcases Option.bind_eq_some_iff.mp meant with ⟨_, meantRight, ⟨⟩⟩
        have parsed := operand.complete meantRight stops (Nat.le_of_succ_le small)
        rw [RelationPhrase.tokens, List.cons_append, parseRelation, parsed]
        rfl
    | between low high =>
        rcases Option.bind_eq_some_iff.mp meant with ⟨_, meantLow, behind⟩
        rcases Option.bind_eq_some_iff.mp behind with ⟨_, meantHigh, ⟨⟩⟩
        rw [RelationPhrase.tokens, List.cons_append, List.append_assoc, List.cons_append] at small ⊢
        rw [List.length_cons] at small
        have ends : Stops Token.isStep (.and :: (high.tokens ++ rest)) := rfl
        rw [parseRelation, operand.complete meantLow ends (by omega), ok_bind]
        dsimp only
        rw [Token.expect_cons, ok_bind]
        dsimp only
        rw [List.length_append, List.length_cons] at small
        rw [operand.complete meantHigh stops (by omega)]
        rfl
    | among candidates =>
        rcases Option.bind_eq_some_iff.mp meant with ⟨_, meantCandidates, ⟨⟩⟩
        have parsed := enclosed.complete meantCandidates (.of_false rest)
          (Nat.le_succ_of_le (Nat.le_of_succ_le small))
        rw [RelationPhrase.tokens, List.cons_append, parseRelation_among, parsed]
        rfl

/-! ## Connectives -/

theorem parseMore_eq_parseMany
    (word : Token)
    (connective : Connective)
    (part : List Token → Except ParseFailure (Condition × List Token))
    (fuel : Nat)
    (left : Condition)
    (input : List Token) :
    parseMore word connective part fuel left input = do
      let (rights, rest) ← parseMany (· == word) (word.behind part) fuel input
      return (rights.foldl (.joined connective) left, rest) := by
  induction fuel generalizing left input with
  | zero => cases input <;> rfl
  | succ fuel ih =>
      cases input with
      | nil => rfl
      | cons token input =>
          by_cases same : token = word
          · subst same
            have sign : ¬Stops (· == token) (token :: input) := by simp [Stops]
            rw [parseMore, if_pos rfl, parseMany_of_sign fuel sign, Token.behind, Token.expect_cons,
              ok_bind]
            dsimp only
            cases part input with
            | error failure => rfl
            | ok found =>
                simp only [ok_bind, ih]
                cases parseMany (· == token) (token.behind part) fuel found.2 <;> rfl
          · have stops : Stops (· == word) (token :: input) := by simpa [Stops] using same
            rw [parseMore, if_neg same, parseMany_of_stops _ stops]
            rfl

theorem parseChain_eq_parseSequence
    (word : Token)
    (connective : Connective)
    (part : List Token → Except ParseFailure (Condition × List Token)) :
    parseChain word connective part =
      parseSequence part (· == word) (word.behind part)
        fun left rights => rights.foldl (.joined connective) left := by
  funext input
  unfold parseChain parseSequence
  simp only [parseMore_eq_parseMany]

theorem recognizes_parseChain
    {bound : Nat}
    {part : List Token → Except ParseFailure (Condition × List Token)}
    (connective : Connective)
    (each : Recognizes bound part
      (fun found : Phrase connective.part => found.tokens)
      (fun found => found.condition? references) connective.part.goesOn) :
    Recognizes bound (parseChain connective.token connective part)
      (fun found : Phrase (.chain connective) => found.tokens)
      (fun found => found.condition? references) (Level.chain connective).goesOn := by
  rw [parseChain_eq_parseSequence]
  have parts := each.sequence (each.behind connective.token) (Phrases.signed connective)
    fun left rights => rights.foldl (.joined connective) left
  apply parts.map fun found => .chain found.1 (.ofList found.2)
  · rintro ⟨first, others⟩
    exact ⟨(first, others.toList), congrArg (Phrase.chain first) others.ofList_toList⟩
  · rintro ⟨first, others⟩
    rw [Phrase.tokens, Phrases.tokens_ofList]
  · rintro ⟨first, others⟩
    rw [Phrase.condition?, Phrases.conditions?_ofList]

theorem parsePrimary_openParenthesis
    (inner : List Token → Except ParseFailure (Condition × List Token))
    (rest : List Token) :
    references.parsePrimary inner (.openParenthesis :: rest) =
      parseEnclosed inner (.openParenthesis :: rest) := by
  rw [parsePrimary, parseEnclosed, Token.expect_cons, ok_bind]

theorem parsePrimary_operand
    (inner : List Token → Except ParseFailure (Condition × List Token))
    (left : OperandPhrase)
    (rest : List Token) :
    references.parsePrimary inner (left.tokens ++ rest) =
      references.parseOperand (left.tokens ++ rest) >>= fun (left, rest) =>
        references.parseRelation left rest := by
  rw [parsePrimary]
  · exact fun behind => left.tokens_ne rfl _ _
  · exact fun predicate behind => left.tokens_ne rfl _ _

theorem recognizes_parsePrimary
    {bound : Nat}
    {inner : List Token → Except ParseFailure (Condition × List Token)}
    (nested : Recognizes bound inner (fun found : Phrase (.chain .or) => found.tokens)
      (fun found => found.condition? references) (Level.chain .or).goesOn) :
    Recognizes (bound + 1) (references.parsePrimary inner)
      (fun found : Phrase .primary => found.tokens)
      (fun found => found.condition? references) Level.primary.goesOn := by
  have enclosed := nested.enclosed rfl
  constructor
  · intro input condition rest parsed
    unfold parsePrimary at parsed
    split at parsed
    · rename_i behind
      change references.parsePrimary inner (.openParenthesis :: behind) = _ at parsed
      rw [parsePrimary_openParenthesis] at parsed
      rcases enclosed.sound parsed with ⟨found, split, meant⟩
      exact ⟨.parenthesized found, split, meant⟩
    · rename_i predicate behind
      rcases (references.recognizes_parseTest 0 predicate).sound parsed with ⟨found, rfl, meant⟩
      exact ⟨.test predicate found, rfl, meant⟩
    · rcases bind_eq_ok.mp parsed with ⟨⟨left, behind⟩, parsedLeft, parsedRelation⟩
      rcases (references.recognizes_parseOperand 0).sound parsedLeft with ⟨found, rfl, meant⟩
      rcases (references.recognizes_parseRelation 0 left).sound parsedRelation
        with ⟨relation, rfl, meantRelation⟩
      refine ⟨.related found relation, ?_, ?_⟩
      · rw [Phrase.tokens, List.append_assoc]
      · rw [Phrase.condition?, meant]
        exact meantRelation
  · intro found condition rest meant stops small
    cases found with
    | parenthesized inner =>
        have parsed := enclosed.complete meant (.of_false rest) small
        rw [Phrase.tokens, List.cons_append, parsePrimary_openParenthesis]
        exact parsed
    | test predicate arguments =>
        exact (references.recognizes_parseTest bound predicate).complete meant (.of_false rest)
          (Nat.le_of_succ_le small)
    | related left relation =>
        rw [Phrase.condition?] at meant
        rcases Option.bind_eq_some_iff.mp meant with ⟨operand, meantLeft, meantRelation⟩
        rw [Phrase.tokens, List.append_assoc] at small ⊢
        have parsed := (references.recognizes_parseOperand _).complete meantLeft
          (relation.stops rest) small
        rw [parsePrimary_operand, parsed, ok_bind]
        exact (references.recognizes_parseRelation _ operand).complete meantRelation stops
          (Nat.le_refl _)

theorem parseNegation_primary
    (inner : List Token → Except ParseFailure (Condition × List Token))
    (found : Phrase .primary)
    (rest : List Token) :
    references.parseNegation inner (found.tokens ++ rest) =
      references.parsePrimary inner (found.tokens ++ rest) := by
  rw [parseNegation]
  exact found.tokens_ne_not rest

section

variable
    {bound : Nat}
    {inner : List Token → Except ParseFailure (Condition × List Token)}

theorem sound_parseNegation
    (primary : Recognizes bound (references.parsePrimary inner)
      (fun found : Phrase .primary => found.tokens)
      (fun found => found.condition? references) Level.primary.goesOn)
    {input rest : List Token}
    {condition : Condition}
    (parsed : references.parseNegation inner input = .ok (condition, rest)) :
    ∃ found : Phrase .negation,
      input = found.tokens ++ rest ∧ found.condition? references = some condition := by
  fun_induction references.parseNegation inner input generalizing condition with
  | case1 input ih =>
      rcases bind_eq_ok.mp parsed with ⟨⟨negated, _⟩, parsedInner, ⟨⟩⟩
      rcases ih parsedInner with ⟨found, rfl, meant⟩
      refine ⟨.not found, rfl, ?_⟩
      rw [Phrase.condition?, meant]
      rfl
  | case2 input =>
      rcases primary.sound parsed with ⟨found, rfl, meant⟩
      exact ⟨.plain found, rfl, meant⟩

theorem complete_parseNegation
    (primary : Recognizes bound (references.parsePrimary inner)
      (fun found : Phrase .primary => found.tokens)
      (fun found => found.condition? references) Level.primary.goesOn) :
    ∀ (found : Phrase .negation) {condition : Condition} {rest : List Token},
      found.condition? references = some condition → Stops Level.negation.goesOn rest →
      (found.tokens ++ rest).length ≤ bound →
      references.parseNegation inner (found.tokens ++ rest) = .ok (condition, rest)
  | .not found, condition, rest, meant, stops, small => by
      rcases Option.bind_eq_some_iff.mp meant with ⟨_, meantInner, ⟨⟩⟩
      have parsed := complete_parseNegation primary found meantInner stops
        (Nat.le_of_succ_le small)
      rw [Phrase.tokens, List.cons_append, parseNegation, parsed]
      rfl
  | .plain found, condition, rest, meant, stops, small => by
      rw [Phrase.tokens, parseNegation_primary]
      exact primary.complete meant stops small

end

theorem recognizes_parseCondition (depth : Nat) :
    Recognizes depth (references.parseCondition depth)
      (fun found : Phrase (.chain .or) => found.tokens)
      (fun found => found.condition? references) (Level.chain .or).goesOn := by
  induction depth with
  | zero =>
      constructor
      · nofun
      · intro found condition rest _ _ small
        have none : found.tokens ++ rest = [] := List.length_eq_zero_iff.mp (Nat.le_zero.mp small)
        exact absurd (List.append_eq_nil_iff.mp none).1 found.tokens_ne_nil
  | succ depth ih =>
      have primary := references.recognizes_parsePrimary ih
      have negation : Recognizes (depth + 1)
          (references.parseNegation (references.parseCondition depth))
          (fun found : Phrase .negation => found.tokens)
          (fun found => found.condition? references) Level.negation.goesOn :=
        ⟨references.sound_parseNegation primary,
          references.complete_parseNegation primary _⟩
      have conjunction := references.recognizes_parseChain .and negation
      exact references.recognizes_parseChain .or conjunction

/-! ## Whole expressions -/

/-- Tokens before the end of input are read as a condition just if they derive it. -/
theorem condition_eq_ok_iff
    {tokens : List Token}
    {condition : Condition}
    (noEnd : Token.endOfInput ∉ tokens) :
    references.condition (tokens ++ [.endOfInput]) = .ok condition ↔
      ∃ found : Phrase (.chain .or),
        tokens = found.tokens ∧ found.condition? references = some condition := by
  have recognizes :=
    references.recognizes_parseCondition (tokens ++ [Token.endOfInput]).length
  constructor
  · intro parsed
    rcases bind_eq_ok.mp parsed with ⟨⟨_, behind⟩, parsedCondition, ended⟩
    rcases bind_eq_ok.mp ended with ⟨⟨_, rest⟩, expected, ⟨⟩⟩
    rw [Token.expect_eq_ok_iff] at expected
    subst expected
    rcases recognizes.sound parsedCondition with ⟨found, split, meant⟩
    have noOther : Token.endOfInput ∉ ([] : List Token) := List.not_mem_nil
    exact ⟨found, ((List.append_cons_inj_of_notMem noEnd noOther).mp split).1, meant⟩
  · rintro ⟨found, rfl, meant⟩
    have ends : Stops (Level.chain .or).goesOn [.endOfInput] := rfl
    rw [References.condition, recognizes.complete meant ends (Nat.le_refl _), ok_bind]
    rfl

/-- The tokens of an expression are those with which it is spelled. -/
theorem scanExpression_eq_ok_iff {text : String} {tokens : List Token} :
    scanExpression text = .ok tokens ↔
      ∃ lexemes, lexemes ≠ [] ∧ tokens = lexemes ++ [.endOfInput] ∧
        Lexes text.toList lexemes := by
  unfold scanExpression
  constructor
  · intro scanned
    split at scanned
    · cases scanned
    · cases scanned
    · rename_i found notEmpty scan
      cases scanned
      rcases scan_eq_ok_iff_lexes.mp scan with ⟨lexemes, rfl, spelled⟩
      refine ⟨lexemes, ?_, rfl, spelled⟩
      rintro rfl
      exact notEmpty rfl
  · rintro ⟨lexemes, nonempty, rfl, spelled⟩
    rw [spelled.scan]
    split
    · rename_i failed
      cases failed
    · rename_i empty
      have none : lexemes = [] := List.append_cancel_right (Except.ok.inj empty)
      exact absurd none nonempty
    · rename_i found
      rw [Except.ok.inj found]

end References

/-- An expression is read if its tokens are. -/
theorem Scope.parse_fst_eq_ok_iff
    {α : Type}
    {scope : Scope}
    {parser : References → List Token → Except ParseFailure α}
    {text : String}
    {result : α} :
    (scope.parse parser text).1 = .ok result ↔
      ∃ tokens, References.scanExpression text = .ok tokens ∧
        parser scope.references tokens = .ok result := by
  unfold parse
  cases References.scanExpression text with
  | error failure => exact ⟨nofun, nofun⟩
  | ok tokens =>
      dsimp only
      cases parsed : parser scope.references tokens with
      | error failure =>
          constructor
          · nofun
          · rintro ⟨_, ⟨⟩, found⟩
            rw [parsed] at found
            cases found
      | ok value =>
          constructor
          · rintro ⟨⟩
            exact ⟨tokens, rfl, parsed⟩
          · rintro ⟨_, ⟨⟩, found⟩
            rw [parsed] at found
            cases found
            rfl

/-- A text is read as a condition just if it is spelled with tokens that derive it. -/
theorem Scope.condition_fst_eq_ok_iff
    {scope : Scope}
    {text : String}
    {condition : Condition} :
    (scope.condition text).1 = .ok condition ↔
      ∃ found : Phrase (.chain .or),
        Lexes text.toList found.tokens ∧
          found.condition? scope.references = some condition := by
  rw [Scope.condition, parse_fst_eq_ok_iff]
  constructor
  · rintro ⟨tokens, scanned, parsed⟩
    rcases References.scanExpression_eq_ok_iff.mp scanned with ⟨lexemes, _, rfl, spelled⟩
    rcases (References.condition_eq_ok_iff _ spelled.endOfInput_not_mem).mp parsed
      with ⟨found, rfl, meant⟩
    exact ⟨found, spelled, meant⟩
  · rintro ⟨found, spelled, meant⟩
    refine ⟨found.tokens ++ [.endOfInput], ?_, ?_⟩
    · exact References.scanExpression_eq_ok_iff.mpr
        ⟨found.tokens, found.tokens_ne_nil, rfl, spelled⟩
    · exact (References.condition_eq_ok_iff _ spelled.endOfInput_not_mem).mpr
        ⟨found, rfl, meant⟩

/-- A text has one derivation at most. -/
theorem Phrase.eq_of_lexes
    {text : List Char}
    {first second : Phrase (.chain .or)}
    (spelled : Lexes text first.tokens)
    (spelledSecond : Lexes text second.tokens) :
    first = second :=
  Phrase.tokens_injective _ (spelled.unique spelledSecond)

/-- A text is read as a condition just if it is spelled with tokens that derive the
condition; there is one such derivation at most. -/
theorem Scope.condition_eq_ok_iff_derives (scope : Scope) (text : String) :
    (∀ condition, (scope.condition text).1 = .ok condition ↔
      ∃ found : Phrase (.chain .or),
        Lexes text.toList found.tokens ∧
          found.condition? scope.references = some condition) ∧
    ∀ first second : Phrase (.chain .or),
      Lexes text.toList first.tokens → Lexes text.toList second.tokens → first = second :=
  ⟨fun _ => condition_fst_eq_ok_iff, fun _ _ => Phrase.eq_of_lexes⟩

end ItemTable
