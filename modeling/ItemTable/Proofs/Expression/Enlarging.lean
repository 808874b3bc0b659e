import ItemTable.Proofs.Expression.Parsing

/-!
# Reading with more meanings

Placeholders may come to be explained that were not.  As long as those that were are
explained as before, a derivation that stands for a tree goes on to stand for it.  So a
text that was read is read as the same tree; at most, texts that were refused can be
read now.
-/

namespace ItemTable

/-! ## Derivations of projections -/

/-- The tokens of a path behind a comma. -/
def PathPhrase.commaTokens (phrase : PathPhrase) : List Token :=
  .comma :: phrase.tokens

theorem PathPhrase.signed :
    Signed PathPhrase.commaTokens (· == .comma) Token.isStep Token.isStepOrComma where
  begins _ := ⟨_, _, rfl, rfl, rfl⟩
  ends _ := rfl

/-- Paths with commas between them, at least one. -/
structure PathPhrases where
  first : PathPhrase
  others : List PathPhrase

namespace PathPhrases

def tokens (phrase : PathPhrases) : List Token :=
  phrase.first.tokens ++ phrase.others.flatMap PathPhrase.commaTokens

def paths? (references : References) (phrase : PathPhrases) : Option (List Path) := do
  let path ← phrase.first.path? references
  let paths ← phrase.others.mapM (PathPhrase.path? references)
  return path :: paths

end PathPhrases

namespace References

section

variable (references : References)

theorem parseMorePaths_of_stops
    (fuel : Nat)
    (input : List Token)
    (stops : Stops (· == .comma) input) :
    references.parseMorePaths fuel input = .ok ([], input) := by
  cases input with
  | nil => cases fuel <;> rfl
  | cons token input => cases token <;> cases fuel <;> first | rfl | cases stops

theorem parseMorePaths_of_sign
    (fuel : Nat)
    (input : List Token)
    (comma : ¬Stops (· == .comma) input) :
    references.parseMorePaths (fuel + 1) input = do
      let (path, rest) ← Token.behind .comma references.parsePath input
      let (paths, rest) ← references.parseMorePaths fuel rest
      return (path :: paths, rest) := by
  cases input with
  | nil => exact absurd rfl comma
  | cons token input =>
      cases token with
      | comma => rfl
      | _ => exact absurd rfl comma

/-- The paths of a projection, and what is left behind them. -/
def parsePaths : List Token → Except ParseFailure (List Path × List Token) :=
  parseSequence references.parsePath (· == .comma) (Token.behind .comma references.parsePath)
    List.cons

theorem recognizes_parsePaths (bound : Nat) :
    Recognizes bound references.parsePaths PathPhrases.tokens (PathPhrases.paths? references)
      Token.isStepOrComma := by
  have path := references.recognizes_parsePath bound
  have parts := path.sequence (path.behind .comma) PathPhrase.signed List.cons
  apply parts.map fun found => ⟨found.1, found.2⟩
  · exact fun phrase => ⟨(phrase.first, phrase.others), rfl⟩
  · exact fun _ => rfl
  · exact fun _ => rfl

theorem projection_eq_parsePaths (tokens : List Token) :
    references.projection tokens = do
      let (paths, rest) ← references.parsePaths tokens
      let (_, _) ← Token.expect .endOfInput rest
      return paths := by
  have commas := (references.recognizes_parsePath 0).behind .comma
  have loop (rest : List Token) := loop_eq_parseMany references.parseMorePaths_of_stops
    references.parseMorePaths_of_sign (commas.shorter PathPhrase.signed)
    (Nat.le_refl rest.length)
  unfold projection parsePaths parseSequence
  simp only [loop]
  cases references.parsePath tokens with
  | error failure => rfl
  | ok parsed =>
      simp only [ok_bind]
      cases parseMany (· == .comma) (Token.behind .comma references.parsePath) parsed.2.length
        parsed.2 <;> rfl

/-- Tokens before the end of input are read as a projection just if they derive it. -/
theorem projection_eq_ok_iff
    {tokens : List Token}
    {paths : List Path}
    (noEnd : Token.endOfInput ∉ tokens) :
    references.projection (tokens ++ [.endOfInput]) = .ok paths ↔
      ∃ found : PathPhrases,
        tokens = found.tokens ∧ found.paths? references = some paths := by
  rw [projection_eq_parsePaths]
  constructor
  · intro parsed
    rcases bind_eq_ok.mp parsed with ⟨⟨_, behind⟩, parsedPaths, ended⟩
    rcases bind_eq_ok.mp ended with ⟨⟨_, rest⟩, expected, ⟨⟩⟩
    rw [Token.expect_eq_ok_iff] at expected
    subst expected
    rcases (references.recognizes_parsePaths 0).sound parsedPaths with ⟨found, split, meant⟩
    have noOther : Token.endOfInput ∉ ([] : List Token) := List.not_mem_nil
    exact ⟨found, ((List.append_cons_inj_of_notMem noEnd noOther).mp split).1, meant⟩
  · rintro ⟨found, rfl, meant⟩
    have ends : Stops Token.isStepOrComma [.endOfInput] := rfl
    rw [(references.recognizes_parsePaths _).complete meant ends (Nat.le_refl _), ok_bind]
    rfl

end

end References

/-- A text is read as a projection just if it is spelled with tokens that derive it. -/
theorem Scope.projection_fst_eq_ok_iff
    {scope : Scope}
    {text : String}
    {paths : List Path} :
    (scope.projection text).1 = .ok paths ↔
      ∃ found : PathPhrases,
        Lexes text.toList found.tokens ∧ found.paths? scope.references = some paths := by
  rw [Scope.projection, parse_fst_eq_ok_iff]
  constructor
  · rintro ⟨tokens, scanned, parsed⟩
    rcases References.scanExpression_eq_ok_iff.mp scanned with ⟨lexemes, -, rfl, spelled⟩
    rcases (References.projection_eq_ok_iff _ spelled.endOfInput_not_mem).mp parsed
      with ⟨found, rfl, meant⟩
    exact ⟨found, spelled, meant⟩
  · rintro ⟨found, spelled, meant⟩
    refine ⟨found.tokens ++ [.endOfInput], ?_, ?_⟩
    · exact References.scanExpression_eq_ok_iff.mpr
        ⟨found.tokens, List.cons_ne_nil _ _, rfl, spelled⟩
    · exact (References.projection_eq_ok_iff _ spelled.endOfInput_not_mem).mpr
        ⟨found, rfl, meant⟩

/-! ## Meanings that are kept -/

namespace References

/-- Every placeholder that has a meaning has the same one in `wide`. -/
structure Within (narrow wide : References) : Prop where
  names : ∀ placeholder name,
    narrow.names.find? placeholder = some name → wide.names.find? placeholder = some name
  values : ∀ placeholder value,
    narrow.values.find? placeholder = some value → wide.values.find? placeholder = some value

namespace Within

variable {narrow wide : References}

theorem refl (references : References) : references.Within references :=
  ⟨fun _ _ found => found, fun _ _ found => found⟩

theorem trans
    {between : References}
    (first : narrow.Within between)
    (second : between.Within wide) :
    narrow.Within wide :=
  ⟨fun placeholder name found => second.names _ _ (first.names placeholder name found),
    fun placeholder value found => second.values _ _ (first.values placeholder value found)⟩

theorem name?
    (within : narrow.Within wide)
    {phrase : NamePhrase}
    {name : String}
    (meant : phrase.name? narrow = some name) :
    phrase.name? wide = some name := by
  cases phrase with
  | identifier word => exact meant
  | placeholder word => exact within.names _ _ meant

theorem element?
    (within : narrow.Within wide)
    {phrase : StepPhrase}
    {element : PathElement}
    (meant : phrase.element? narrow = some element) :
    phrase.element? wide = some element := by
  cases phrase with
  | field name =>
      rcases Option.map_eq_some_iff.mp meant with ⟨field, named, rfl⟩
      exact Option.map_eq_some_iff.mpr ⟨field, within.name? named, rfl⟩
  | index position => exact meant

/-- Phrases one after the other keep their meanings if each of them does. -/
theorem mapM
    {phrase α : Type}
    {before after : phrase → Option α}
    (kept : ∀ {found : phrase} {value : α},
      before found = some value → after found = some value)
    {phrases : List phrase}
    {values : List α}
    (meant : phrases.mapM before = some values) :
    phrases.mapM after = some values := by
  induction phrases generalizing values with
  | nil => exact meant
  | cons first others ih =>
      rcases Recognizes.mapM_cons_eq_some_iff.mp meant with ⟨value, more, head, tail, rfl⟩
      exact Recognizes.mapM_cons_eq_some_iff.mpr ⟨value, more, kept head, ih tail, rfl⟩

theorem path?
    (within : narrow.Within wide)
    {phrase : PathPhrase}
    {path : Path}
    (meant : phrase.path? narrow = some path) :
    phrase.path? wide = some path := by
  simp only [PathPhrase.path?, Option.bind_eq_bind, Option.bind_eq_some_iff] at meant ⊢
  rcases meant with ⟨root, rooted, elements, stepped, whole⟩
  exact ⟨root, within.name? rooted, elements, mapM within.element? stepped, whole⟩

theorem paths?
    (within : narrow.Within wide)
    {phrase : PathPhrases}
    {paths : List Path}
    (meant : phrase.paths? narrow = some paths) :
    phrase.paths? wide = some paths := by
  simp only [PathPhrases.paths?, Option.bind_eq_bind, Option.bind_eq_some_iff] at meant ⊢
  rcases meant with ⟨path, first, others, more, whole⟩
  exact ⟨path, within.path? first, others, mapM within.path? more, whole⟩

theorem operand?
    (within : narrow.Within wide)
    {phrase : OperandPhrase}
    {operand : Operand}
    (meant : phrase.operand? narrow = some operand) :
    phrase.operand? wide = some operand := by
  cases phrase with
  | literal word =>
      rcases Option.map_eq_some_iff.mp meant with ⟨value, found, rfl⟩
      exact Option.map_eq_some_iff.mpr ⟨value, within.values _ _ found, rfl⟩
  | size place =>
      rcases Option.map_eq_some_iff.mp meant with ⟨path, found, rfl⟩
      exact Option.map_eq_some_iff.mpr ⟨path, within.path? found, rfl⟩
  | path place =>
      rcases Option.map_eq_some_iff.mp meant with ⟨path, found, rfl⟩
      exact Option.map_eq_some_iff.mpr ⟨path, within.path? found, rfl⟩

theorem operands?
    (within : narrow.Within wide)
    {phrase : OperandPhrases}
    {operands : List Operand}
    (meant : phrase.operands? narrow = some operands) :
    phrase.operands? wide = some operands := by
  simp only [OperandPhrases.operands?, Option.bind_eq_bind, Option.bind_eq_some_iff] at meant ⊢
  rcases meant with ⟨operand, first, others, more, whole⟩
  exact ⟨operand, within.operand? first, others, mapM within.operand? more, whole⟩

theorem relation?
    (within : narrow.Within wide)
    {left : Operand}
    {phrase : RelationPhrase}
    {condition : Condition}
    (meant : phrase.condition? narrow left = some condition) :
    phrase.condition? wide left = some condition := by
  cases phrase with
  | compare operator right =>
      simp only [RelationPhrase.condition?, Option.bind_eq_bind, Option.bind_eq_some_iff]
        at meant ⊢
      rcases meant with ⟨operand, found, whole⟩
      exact ⟨operand, within.operand? found, whole⟩
  | between low high =>
      simp only [RelationPhrase.condition?, Option.bind_eq_bind, Option.bind_eq_some_iff]
        at meant ⊢
      rcases meant with ⟨first, foundLow, second, foundHigh, whole⟩
      exact ⟨first, within.operand? foundLow, second, within.operand? foundHigh, whole⟩
  | among candidates =>
      simp only [RelationPhrase.condition?, Option.bind_eq_bind, Option.bind_eq_some_iff]
        at meant ⊢
      rcases meant with ⟨operands, found, whole⟩
      exact ⟨operands, within.operands? found, whole⟩

mutual

/-- A derivation goes on to stand for its condition. -/
theorem condition? (within : narrow.Within wide) {level : Level} :
    ∀ (phrase : Phrase level) {condition : Condition},
      phrase.condition? narrow = some condition → phrase.condition? wide = some condition
  | .chain first others, condition, meant => by
      simp only [Phrase.condition?, Option.bind_eq_bind, Option.bind_eq_some_iff] at meant ⊢
      rcases meant with ⟨left, head, rights, tail, whole⟩
      exact ⟨left, within.condition? first head, rights, within.conditions? others tail, whole⟩
  | .not inner, condition, meant => by
      simp only [Phrase.condition?, Option.bind_eq_bind, Option.bind_eq_some_iff] at meant ⊢
      rcases meant with ⟨negated, found, whole⟩
      exact ⟨negated, within.condition? inner found, whole⟩
  | .plain inner, condition, meant => within.condition? inner meant
  | .parenthesized inner, condition, meant => within.condition? inner meant
  | .test predicate arguments, condition, meant => by
      simp only [Phrase.condition?, Option.bind_eq_bind, Option.bind_eq_some_iff] at meant ⊢
      rcases meant with ⟨operands, found, accepted⟩
      exact ⟨operands, within.operands? found, accepted⟩
  | .related left relation, condition, meant => by
      simp only [Phrase.condition?, Option.bind_eq_bind, Option.bind_eq_some_iff] at meant ⊢
      rcases meant with ⟨operand, found, related⟩
      exact ⟨operand, within.operand? found, within.relation? related⟩

theorem conditions? (within : narrow.Within wide) {connective : Connective} :
    ∀ (phrases : Phrases connective) {conditions : List Condition},
      phrases.conditions? narrow = some conditions → phrases.conditions? wide = some conditions
  | .nil, conditions, meant => meant
  | .cons first others, conditions, meant => by
      simp only [Phrases.conditions?, Option.bind_eq_bind, Option.bind_eq_some_iff] at meant ⊢
      rcases meant with ⟨right, head, rights, tail, whole⟩
      exact ⟨right, within.condition? first head, rights, within.conditions? others tail, whole⟩

end

/-! ## Texts -/

/-- A text that was read as a condition is read as the same condition. -/
theorem condition_fst
    {scope later : Scope}
    {text : String}
    {condition : Condition}
    (within : scope.references.Within later.references)
    (read : (scope.condition text).1 = .ok condition) :
    (later.condition text).1 = .ok condition := by
  rcases Scope.condition_fst_eq_ok_iff.mp read with ⟨found, spelled, meant⟩
  exact Scope.condition_fst_eq_ok_iff.mpr ⟨found, spelled, within.condition? found meant⟩

/-- A text that was read as a projection is read as the same projection. -/
theorem projection_fst
    {scope later : Scope}
    {text : String}
    {paths : List Path}
    (within : scope.references.Within later.references)
    (read : (scope.projection text).1 = .ok paths) :
    (later.projection text).1 = .ok paths := by
  rcases Scope.projection_fst_eq_ok_iff.mp read with ⟨found, spelled, meant⟩
  exact Scope.projection_fst_eq_ok_iff.mpr ⟨found, spelled, within.paths? meant⟩

end Within

end References

end ItemTable
