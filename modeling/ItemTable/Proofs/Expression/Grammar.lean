import ItemTable.Expression.Parse
import ItemTable.Proofs.Condition.Form
import ItemTable.Proofs.Condition.Tokens

/-!
# The grammar of conditions

A phrase is a derivation of a condition: how tokens are put together to names, paths,
operands and conditions, before any placeholder is replaced.  Phrases are told apart by
their tokens.  So tokens have one derivation at most, although AND stands between
conditions as well as between the bounds of a range.
-/

namespace ItemTable

/-! ## Paths and operands -/

/-- A name, which may be a placeholder. -/
inductive NamePhrase where
  | identifier (word : String)
  | placeholder (word : String)

namespace NamePhrase

def token : NamePhrase → Token
  | identifier word => .identifier word
  | placeholder word => .name word

/-- The name that is meant. -/
def name? (references : References) : NamePhrase → Option String
  | identifier word => some word
  | placeholder word => references.names.find? ("#" ++ word)

end NamePhrase

/-- A step of a path behind its root. -/
inductive StepPhrase where
  | field (name : NamePhrase)
  | index (position : Nat)

namespace StepPhrase

def tokens : StepPhrase → List Token
  | field name => [.dot, name.token]
  | index position => [.openBracket, .index position, .closeBracket]

def element? (references : References) : StepPhrase → Option PathElement
  | field name => (name.name? references).map .attribute
  | index position => some (.index position)

end StepPhrase

/-- A name with steps behind it. -/
structure PathPhrase where
  root : NamePhrase
  steps : List StepPhrase

namespace PathPhrase

def tokens (phrase : PathPhrase) : List Token :=
  phrase.root.token :: phrase.steps.flatMap StepPhrase.tokens

def path? (references : References) (phrase : PathPhrase) : Option Path := do
  let root ← phrase.root.name? references
  let elements ← phrase.steps.mapM (StepPhrase.element? references)
  return ⟨.attribute root :: elements⟩

end PathPhrase

/-- An operand: a literal placeholder, a size, or a path. -/
inductive OperandPhrase where
  | literal (word : String)
  | size (place : PathPhrase)
  | path (place : PathPhrase)

namespace OperandPhrase

def tokens : OperandPhrase → List Token
  | literal word => [.value word]
  | size place => .size :: .openParenthesis :: (place.tokens ++ [.closeParenthesis])
  | path place => place.tokens

def operand? (references : References) : OperandPhrase → Option Operand
  | literal word => (references.values.find? (":" ++ word)).map .value
  | size place => (place.path? references).map .size
  | path place => (place.path? references).map .path

/-- The tokens of an operand behind a comma. -/
def commaTokens (phrase : OperandPhrase) : List Token :=
  .comma :: phrase.tokens

end OperandPhrase

/-- Operands with commas between them, at least one. -/
structure OperandPhrases where
  first : OperandPhrase
  others : List OperandPhrase

namespace OperandPhrases

def tokens (phrase : OperandPhrases) : List Token :=
  phrase.first.tokens ++ phrase.others.flatMap OperandPhrase.commaTokens

def operands? (references : References) (phrase : OperandPhrases) : Option (List Operand) := do
  let operand ← phrase.first.operand? references
  let operands ← phrase.others.mapM (OperandPhrase.operand? references)
  return operand :: operands

end OperandPhrases

/-- What is said about an operand. -/
inductive RelationPhrase where
  | compare (operator : Comparison) (right : OperandPhrase)
  | between (low high : OperandPhrase)
  | among (candidates : OperandPhrases)

namespace RelationPhrase

def tokens : RelationPhrase → List Token
  | compare operator right => .comparison operator :: right.tokens
  | between low high => .between :: (low.tokens ++ .and :: high.tokens)
  | among candidates => .among :: .openParenthesis :: (candidates.tokens ++ [.closeParenthesis])

/-- The condition that the operand is related so. -/
def condition? (references : References) (left : Operand) : RelationPhrase → Option Condition
  | compare operator right => do
      let right ← right.operand? references
      return .compare left operator right
  | between low high => do
      let low ← low.operand? references
      let high ← high.operand? references
      return .between left low high
  | among candidates => do
      let candidates ← candidates.operands? references
      return .among left candidates

end RelationPhrase

/-! ## Conditions -/

/-- How loosely the parts of a condition are bound. -/
inductive Level where
  | chain (connective : Connective)
  | negation
  | primary

/-- The level of what a connective joins. -/
def Connective.part : Connective → Level
  | or => .chain .and
  | and => .negation

mutual

/-- A derivation of a condition. -/
inductive Phrase : Level → Type
  /-- Parts with the connective between them, at least one. -/
  | chain
      {connective : Connective}
      (first : Phrase connective.part)
      (others : Phrases connective) :
      Phrase (.chain connective)
  | not (inner : Phrase .negation) : Phrase .negation
  | plain (inner : Phrase .primary) : Phrase .negation
  | parenthesized (inner : Phrase (.chain .or)) : Phrase .primary
  | test (predicate : Predicate) (arguments : OperandPhrases) : Phrase .primary
  | related (left : OperandPhrase) (relation : RelationPhrase) : Phrase .primary

/-- Derivations of the parts of a chain behind the first one, each behind the
connective. -/
inductive Phrases : Connective → Type
  | nil {connective : Connective} : Phrases connective
  | cons
      {connective : Connective}
      (first : Phrase connective.part)
      (others : Phrases connective) :
      Phrases connective

end

mutual

/-- The tokens that are derived. -/
def Phrase.tokens {level : Level} : Phrase level → List Token
  | .chain first others => first.tokens ++ others.tokens
  | .not inner => .not :: inner.tokens
  | .plain inner => inner.tokens
  | .parenthesized inner => .openParenthesis :: (inner.tokens ++ [.closeParenthesis])
  | .test predicate arguments =>
      .predicate predicate :: .openParenthesis :: (arguments.tokens ++ [.closeParenthesis])
  | .related left relation => left.tokens ++ relation.tokens

def Phrases.tokens {connective : Connective} : Phrases connective → List Token
  | .nil => []
  | .cons first others => connective.token :: (first.tokens ++ others.tokens)

end

mutual

/-- The condition that is derived, if all placeholders stand for something and all
predicates accept their arguments. -/
def Phrase.condition? (references : References) {level : Level} :
    Phrase level → Option Condition
  | @Phrase.chain connective first others => do
      let left ← first.condition? references
      let rights ← others.conditions? references
      return rights.foldl (.joined connective) left
  | .not inner => do
      let inner ← inner.condition? references
      return .not inner
  | .plain inner => inner.condition? references
  | .parenthesized inner => inner.condition? references
  | .test predicate arguments => do
      let arguments ← arguments.operands? references
      if predicate.accepts arguments then
        some (.test predicate arguments)
      else
        none
  | .related left relation => do
      let left ← left.operand? references
      relation.condition? references left

def Phrases.conditions? (references : References) {connective : Connective} :
    Phrases connective → Option (List Condition)
  | .nil => some []
  | .cons first others => do
      let right ← first.condition? references
      let rights ← others.conditions? references
      return right :: rights

end

/-! ## What does not go on -/

/-- What stands behind a phrase is no continuation of it. -/
def Stops (goesOn : Token → Bool) (rest : List Token) : Prop :=
  rest.head?.any goesOn = false

theorem Stops.mono
    {goesOn fewer : Token → Bool}
    {rest : List Token}
    (stops : Stops goesOn rest)
    (less : ∀ token, fewer token → goesOn token) :
    Stops fewer rest := by
  cases rest with
  | nil => rfl
  | cons token rest =>
      have here : goesOn token = false := stops
      exact Bool.eq_false_iff.mpr fun goes => by simp [less token goes] at here

/-- The tokens that a path begins with. -/
def Token.isName : Token → Bool
  | identifier _ | name _ => true
  | _ => false

/-- The tokens that an operand begins with. -/
def Token.beginsOperand : Token → Bool
  | value _ | size => true
  | token => token.isName

/-- The tokens that go on with a path, and so with an operand. -/
def Token.isStep : Token → Bool
  | dot | openBracket => true
  | _ => false

/-- The tokens that go on with operands. -/
def Token.isStepOrComma (token : Token) : Bool :=
  token == comma || token.isStep

/-- The tokens that go on with a phrase of a level. -/
def Level.goesOn : Level → Token → Bool
  | chain .or, .or | chain _, .and => true
  | _, token => token.isStep

/-- Phrases are told apart by their tokens, and what stands behind them as well. -/
def TellsApart
    {phrase : Type}
    (tokens : phrase → List Token)
    (goesOn : Token → Bool) : Prop :=
  ∀ ⦃first second : phrase⦄ ⦃rest other : List Token⦄,
    tokens first ++ rest = tokens second ++ other →
    Stops goesOn rest → Stops goesOn other →
    first = second ∧ rest = other

theorem Stops.of_false (rest : List Token) : Stops (fun _ => false) rest := by
  cases rest <;> rfl

/-- Phrases begin with signs that go on with none of them; signs and what goes on with a
phrase go on with a sequence of phrases. -/
structure Signed
    {phrase : Type}
    (tokens : phrase → List Token)
    (isSign goesOn ending : Token → Bool) : Prop where
  begins : ∀ phrase, ∃ sign behind,
    tokens phrase = sign :: behind ∧ isSign sign ∧ goesOn sign = false
  ends : ∀ token, ending token = (isSign token || goesOn token)

namespace Signed

variable
    {phrase : Type}
    {tokens : phrase → List Token}
    {isSign goesOn ending : Token → Bool}

theorem stops_iff
    (signed : Signed tokens isSign goesOn ending)
    {rest : List Token} :
    Stops ending rest ↔ Stops isSign rest ∧ Stops goesOn rest := by
  cases rest with
  | nil => exact ⟨fun _ => ⟨rfl, rfl⟩, fun _ => rfl⟩
  | cons token rest =>
      change ending token = false ↔ isSign token = false ∧ goesOn token = false
      rw [signed.ends, Bool.or_eq_false_iff]

/-- Nothing goes on with the phrase before signed phrases. -/
theorem stops
    (signed : Signed tokens isSign goesOn ending)
    (phrases : List phrase)
    {rest : List Token}
    (behind : Stops ending rest) :
    Stops goesOn (phrases.flatMap tokens ++ rest) := by
  cases phrases with
  | nil => exact (signed.stops_iff.mp behind).2
  | cons first phrases =>
      rcases signed.begins first with ⟨sign, tail, begins, _, stopped⟩
      rw [List.flatMap_cons, begins]
      exact stopped

theorem not_stops
    (signed : Signed tokens isSign goesOn ending)
    (first : phrase)
    (rest : List Token) :
    ¬Stops isSign (tokens first ++ rest) := by
  rcases signed.begins first with ⟨sign, tail, begins, isSign, _⟩
  rw [begins]
  exact Bool.not_eq_false _ |>.mpr isSign

theorem length_pos
    (signed : Signed tokens isSign goesOn ending)
    (found : phrase) :
    0 < (tokens found).length := by
  rcases signed.begins found with ⟨sign, tail, begins, _⟩
  rw [begins]
  exact Nat.succ_pos _

/-- Signed phrases are told apart one after the other. -/
theorem tellsApart
    (signed : Signed tokens isSign goesOn ending)
    (each : TellsApart tokens goesOn) :
    TellsApart (List.flatMap tokens) ending := by
  intro first
  induction first with
  | nil =>
      intro second rest other same stops _
      cases second with
      | nil => exact ⟨rfl, same⟩
      | cons head second =>
          rw [List.flatMap_nil, List.nil_append, List.flatMap_cons, List.append_assoc] at same
          exact absurd (same ▸ (signed.stops_iff.mp stops).1) (signed.not_stops head _)
  | cons head first ih =>
      intro second rest other same stops stopsOther
      cases second with
      | nil =>
          rw [List.flatMap_nil, List.nil_append, List.flatMap_cons, List.append_assoc] at same
          exact absurd (same ▸ (signed.stops_iff.mp stopsOther).1) (signed.not_stops head _)
      | cons next second =>
          rw [List.flatMap_cons, List.flatMap_cons, List.append_assoc, List.append_assoc] at same
          rcases each same (signed.stops first stops) (signed.stops second stopsOther)
            with ⟨rfl, behind⟩
          rcases ih behind stops stopsOther with ⟨rfl, rfl⟩
          exact ⟨rfl, rfl⟩

end Signed

/-! ## Unambiguity -/

theorem NamePhrase.token_injective : Function.Injective NamePhrase.token := by
  intro first second same
  cases first <;> cases second <;> simp_all [NamePhrase.token]

theorem StepPhrase.tellsApart : TellsApart StepPhrase.tokens fun _ => false := by
  intro first second rest other same _ _
  cases first with
  | field name =>
      cases second with
      | field next =>
          simp only [tokens, List.cons_append, List.nil_append, List.cons.injEq, true_and] at same
          rcases same with ⟨token, rfl⟩
          rw [NamePhrase.token_injective token]
          exact ⟨rfl, rfl⟩
      | index position => simp [tokens] at same
  | index position =>
      cases second with
      | field next => simp [tokens] at same
      | index place => simpa [tokens] using same

theorem StepPhrase.signed :
    Signed StepPhrase.tokens Token.isStep (fun _ => false) Token.isStep where
  begins step := by
    cases step with
    | field name => exact ⟨_, _, rfl, rfl, rfl⟩
    | index position => exact ⟨_, _, rfl, rfl, rfl⟩
  ends _ := (Bool.or_false _).symm

theorem PathPhrase.tellsApart : TellsApart PathPhrase.tokens Token.isStep := by
  have steps := StepPhrase.signed.tellsApart StepPhrase.tellsApart
  intro first second rest other same stops stopsOther
  rcases first with ⟨root, first⟩
  rcases second with ⟨name, second⟩
  simp only [tokens, List.cons_append, List.cons.injEq] at same
  rcases same with ⟨token, behind⟩
  rcases steps behind stops stopsOther with ⟨rfl, rfl⟩
  rw [NamePhrase.token_injective token]
  exact ⟨rfl, rfl⟩

/-- A path begins with a name. -/
theorem PathPhrase.tokens_ne
    {token : Token}
    (noName : token.isName = false)
    (phrase : PathPhrase)
    (rest behind : List Token) :
    phrase.tokens ++ rest ≠ token :: behind := by
  intro same
  rcases phrase with ⟨root, steps⟩
  cases root <;> cases (List.cons.inj same).1 <;> cases noName

theorem OperandPhrase.tellsApart : TellsApart OperandPhrase.tokens Token.isStep := by
  intro first second rest other same stops stopsOther
  cases first with
  | literal word =>
      cases second with
      | literal second => simpa [tokens] using same
      | size place => simp [tokens] at same
      | path place =>
          exact absurd same.symm (place.tokens_ne rfl _ _)
  | size place =>
      cases second with
      | literal word => simp [tokens] at same
      | size next =>
          simp only [tokens, List.cons_append, List.append_assoc, List.nil_append, List.cons.injEq,
            true_and] at same
          rcases PathPhrase.tellsApart same rfl rfl with ⟨rfl, behind⟩
          exact ⟨rfl, (List.cons.inj behind).2⟩
      | path next => exact absurd same.symm (next.tokens_ne rfl _ _)
  | path place =>
      cases second with
      | literal word => exact absurd same (place.tokens_ne rfl _ _)
      | size next => exact absurd same (place.tokens_ne rfl _ _)
      | path next =>
          rcases PathPhrase.tellsApart same stops stopsOther with ⟨rfl, rfl⟩
          exact ⟨rfl, rfl⟩

theorem OperandPhrase.signed :
    Signed OperandPhrase.commaTokens (· == .comma) Token.isStep Token.isStepOrComma where
  begins _ := ⟨_, _, rfl, rfl, rfl⟩
  ends _ := rfl

theorem OperandPhrases.tellsApart : TellsApart OperandPhrases.tokens Token.isStepOrComma := by
  have commas : TellsApart OperandPhrase.commaTokens Token.isStep := by
    intro first second rest other same stops stopsOther
    exact OperandPhrase.tellsApart (List.cons.inj same).2 stops stopsOther
  intro first second rest other same stops stopsOther
  rcases first with ⟨head, first⟩
  rcases second with ⟨next, second⟩
  simp only [tokens, List.append_assoc] at same
  have stopsHere := OperandPhrase.signed.stops first stops
  have stopsThere := OperandPhrase.signed.stops second stopsOther
  rcases OperandPhrase.tellsApart same stopsHere stopsThere with ⟨rfl, behind⟩
  rcases OperandPhrase.signed.tellsApart commas behind stops stopsOther with ⟨rfl, rfl⟩
  exact ⟨rfl, rfl⟩

theorem RelationPhrase.tellsApart : TellsApart RelationPhrase.tokens Token.isStep := by
  intro first second rest other same stops stopsOther
  cases first with
  | compare operator right =>
      cases second with
      | compare next second =>
          simp only [tokens, List.cons_append, List.cons.injEq, Token.comparison.injEq] at same
          rcases same with ⟨rfl, behind⟩
          rcases OperandPhrase.tellsApart behind stops stopsOther with ⟨rfl, rfl⟩
          exact ⟨rfl, rfl⟩
      | between | among => simp [tokens] at same
  | between low high =>
      cases second with
      | between lowest highest =>
          simp only [tokens, List.cons_append, List.append_assoc, List.cons.injEq, true_and] at same
          rcases OperandPhrase.tellsApart same rfl rfl with ⟨rfl, behind⟩
          rcases OperandPhrase.tellsApart (List.cons.inj behind).2 stops stopsOther with ⟨rfl, rfl⟩
          exact ⟨rfl, rfl⟩
      | compare | among => simp [tokens] at same
  | among candidates =>
      cases second with
      | among second =>
          simp only [tokens, List.cons_append, List.append_assoc, List.nil_append, List.cons.injEq,
            true_and] at same
          rcases OperandPhrases.tellsApart same rfl rfl with ⟨rfl, behind⟩
          exact ⟨rfl, (List.cons.inj behind).2⟩
      | compare | between => simp [tokens] at same

/-- An operand begins with a name, a literal or a size. -/
theorem OperandPhrase.tokens_ne
    {token : Token}
    (noOperand : token.beginsOperand = false)
    (phrase : OperandPhrase)
    (rest behind : List Token) :
    phrase.tokens ++ rest ≠ token :: behind := by
  cases phrase with
  | literal word =>
      intro same
      cases (List.cons.inj same).1
      cases noOperand
  | size place =>
      intro same
      cases (List.cons.inj same).1
      cases noOperand
  | path place =>
      apply place.tokens_ne
      cases token <;> first | rfl | cases noOperand

theorem OperandPhrase.tokens_ne_append
    {token : Token}
    (noOperand : token.beginsOperand = false)
    (phrase : OperandPhrase)
    (relation : RelationPhrase)
    (rest behind : List Token) :
    phrase.tokens ++ relation.tokens ++ rest ≠ token :: behind := by
  rw [List.append_assoc]
  exact phrase.tokens_ne noOperand _ _

/-- A relation ends the operand before it. -/
theorem RelationPhrase.stops (phrase : RelationPhrase) (rest : List Token) :
    Stops Token.isStep (phrase.tokens ++ rest) := by
  cases phrase <;> rfl

theorem Phrase.tokens_ne_nil {level : Level} : (phrase : Phrase level) → phrase.tokens ≠ []
  | .chain first others => List.append_ne_nil_of_left_ne_nil first.tokens_ne_nil others.tokens
  | .not inner => List.cons_ne_nil _ inner.tokens
  | .plain inner => inner.tokens_ne_nil
  | .parenthesized inner => List.cons_ne_nil _ _
  | .test predicate arguments => List.cons_ne_nil _ _
  | .related left relation => by
      apply List.append_ne_nil_of_right_ne_nil
      cases relation <;> exact List.cons_ne_nil _ _

/-! ### Parts of a chain -/

namespace Phrases

variable {connective : Connective}

def ofList : List (Phrase connective.part) → Phrases connective
  | [] => nil
  | first :: others => cons first (ofList others)

def toList : Phrases connective → List (Phrase connective.part)
  | nil => []
  | cons first others => first :: others.toList

theorem ofList_toList : (phrase : Phrases connective) → ofList phrase.toList = phrase
  | nil => rfl
  | cons first others => congrArg (cons first) others.ofList_toList

theorem tokens_ofList (phrases : List (Phrase connective.part)) :
    (ofList phrases).tokens =
      phrases.flatMap fun phrase => connective.token :: phrase.tokens := by
  induction phrases with
  | nil => rfl
  | cons first others ih => rw [ofList, tokens, ih, List.flatMap_cons, List.cons_append]

theorem conditions?_ofList (references : References) (phrases : List (Phrase connective.part)) :
    (ofList phrases).conditions? references =
      phrases.mapM fun phrase => phrase.condition? references := by
  induction phrases with
  | nil => rfl
  | cons first others ih => rw [ofList, conditions?, ih, List.mapM_cons]

theorem signed (connective : Connective) :
    Signed (fun phrase : Phrase connective.part => connective.token :: phrase.tokens)
      (· == connective.token) connective.part.goesOn (Level.chain connective).goesOn where
  begins phrase := by
    refine ⟨connective.token, phrase.tokens, rfl, beq_self_eq_true _, ?_⟩
    cases connective <;> rfl
  ends token := by cases connective <;> cases token <;> rfl

end Phrases

/-- What goes on with a part goes on with the chain. -/
theorem Connective.goesOn_of_part
    (connective : Connective)
    (token : Token)
    (goes : connective.part.goesOn token) :
    (Level.chain connective).goesOn token := by
  cases connective <;> cases token <;> first | rfl | cases goes

theorem Phrases.stops
    {connective : Connective}
    (phrase : Phrases connective)
    {rest : List Token}
    (stops : Stops (Level.chain connective).goesOn rest) :
    Stops connective.part.goesOn (phrase.tokens ++ rest) := by
  cases phrase with
  | nil => exact stops.mono connective.goesOn_of_part
  | cons => cases connective <;> rfl

theorem Phrases.not_stops
    {connective : Connective}
    (first : Phrase connective.part)
    (others : Phrases connective)
    (rest : List Token) :
    ¬Stops (Level.chain connective).goesOn ((cons first others).tokens ++ rest) := by
  cases connective <;> exact Bool.noConfusion

/-- No condition without connectives begins with NOT. -/
theorem Phrase.tokens_ne_not
    (phrase : Phrase .primary)
    (rest behind : List Token) :
    phrase.tokens ++ rest ≠ .not :: behind := by
  cases phrase with
  | parenthesized inner => exact fun same => by cases (List.cons.inj same).1
  | test predicate arguments => exact fun same => by cases (List.cons.inj same).1
  | related left relation => exact left.tokens_ne_append rfl relation rest _

mutual

/-- Derivations are told apart by their tokens. -/
theorem Phrase.tellsApart {level : Level} :
    ∀ (first second : Phrase level) {rest other : List Token},
      first.tokens ++ rest = second.tokens ++ other →
      Stops level.goesOn rest → Stops level.goesOn other →
      first = second ∧ rest = other
  | .chain head tail, .chain next more, rest, other, same, stops, stopsOther => by
      rw [Phrase.tokens, Phrase.tokens, List.append_assoc, List.append_assoc] at same
      rcases head.tellsApart next same (tail.stops stops) (more.stops stopsOther)
        with ⟨rfl, behind⟩
      rcases tail.tellsApart more behind stops stopsOther with ⟨rfl, rfl⟩
      exact ⟨rfl, rfl⟩
  | .not inner, .not second, rest, other, same, stops, stopsOther => by
      rcases inner.tellsApart second (List.cons.inj same).2 stops stopsOther with ⟨rfl, rfl⟩
      exact ⟨rfl, rfl⟩
  | .not inner, .plain second, rest, other, same, _, _ =>
      absurd same.symm (second.tokens_ne_not _ _)
  | .plain inner, .not second, rest, other, same, _, _ =>
      absurd same (inner.tokens_ne_not _ _)
  | .plain inner, .plain second, rest, other, same, stops, stopsOther => by
      rcases inner.tellsApart second same stops stopsOther with ⟨rfl, rfl⟩
      exact ⟨rfl, rfl⟩
  | .parenthesized inner, .parenthesized second, rest, other, same, _, _ => by
      simp only [Phrase.tokens, List.cons_append, List.append_assoc, List.nil_append,
        List.cons.injEq, true_and] at same
      rcases inner.tellsApart second same rfl rfl with ⟨rfl, behind⟩
      exact ⟨rfl, (List.cons.inj behind).2⟩
  | .test predicate arguments, .test applied others, rest, other, same, _, _ => by
      simp only [Phrase.tokens, List.cons_append, List.append_assoc, List.nil_append,
        List.cons.injEq, true_and, Token.predicate.injEq] at same
      rcases same with ⟨rfl, inside⟩
      rcases OperandPhrases.tellsApart inside rfl rfl with ⟨rfl, behind⟩
      exact ⟨rfl, (List.cons.inj behind).2⟩
  | .related left relation, .related next more, rest, other, same, stops, stopsOther => by
      rw [Phrase.tokens, Phrase.tokens, List.append_assoc, List.append_assoc] at same
      rcases OperandPhrase.tellsApart same (relation.stops _) (more.stops _) with ⟨rfl, behind⟩
      rcases RelationPhrase.tellsApart behind stops stopsOther with ⟨rfl, rfl⟩
      exact ⟨rfl, rfl⟩
  | .parenthesized inner, .test predicate arguments, rest, other, same, _, _ => by
      cases (List.cons.inj same).1
  | .test predicate arguments, .parenthesized inner, rest, other, same, _, _ => by
      cases (List.cons.inj same).1
  | .parenthesized inner, .related left relation, rest, other, same, _, _ =>
      absurd same.symm (left.tokens_ne_append rfl relation other _)
  | .test predicate arguments, .related left relation, rest, other, same, _, _ =>
      absurd same.symm (left.tokens_ne_append rfl relation other _)
  | .related left relation, .parenthesized inner, rest, other, same, _, _ =>
      absurd same (left.tokens_ne_append rfl relation rest _)
  | .related left relation, .test predicate arguments, rest, other, same, _, _ =>
      absurd same (left.tokens_ne_append rfl relation rest _)

theorem Phrases.tellsApart {connective : Connective} :
    ∀ (first second : Phrases connective) {rest other : List Token},
      first.tokens ++ rest = second.tokens ++ other →
      Stops (Level.chain connective).goesOn rest → Stops (Level.chain connective).goesOn other →
      first = second ∧ rest = other
  | .nil, .nil, rest, other, same, _, _ => ⟨rfl, same⟩
  | .nil, .cons next more, rest, other, same, stops, _ =>
      absurd (same ▸ stops) (Phrases.not_stops next more other)
  | .cons head tail, .nil, rest, other, same, _, stopsOther =>
      absurd (same ▸ stopsOther) (Phrases.not_stops head tail rest)
  | .cons head tail, .cons next more, rest, other, same, stops, stopsOther => by
      simp only [Phrases.tokens, List.cons_append, List.append_assoc, List.cons.injEq,
        true_and] at same
      rcases head.tellsApart next same (tail.stops stops) (more.stops stopsOther)
        with ⟨rfl, behind⟩
      rcases tail.tellsApart more behind stops stopsOther with ⟨rfl, rfl⟩
      exact ⟨rfl, rfl⟩

end

/-- Tokens have one derivation at most. -/
theorem Phrase.tokens_injective (level : Level) :
    Function.Injective fun phrase : Phrase level => phrase.tokens := by
  intro first second same
  have alike : first.tokens ++ [] = second.tokens ++ [] := congrArg (· ++ []) same
  exact (first.tellsApart second alike rfl rfl).1

end ItemTable
