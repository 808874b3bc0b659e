import ItemTable.Expression.Parse
import ItemTable.Proofs.Condition.Tokens
import ItemTable.Proofs.Sequencing

/-!
# Reading the tokens of conditions

The tokens of a tree are read as the tree if it is well formed, and are refused
otherwise; nothing else is ever read from them.  `Reads` says both at once, so
one induction over the tree serves the two halves: the parts of a tree are read
one after the other, and the first part that is not well formed is where
reading stops.
-/

namespace ItemTable

/-- A parser's result is the given value if it is valid, and otherwise an error. -/
def Reads
    {α : Type}
    (valid : Bool)
    (result : Except ParseFailure α)
    (value : α) : Prop :=
  if valid then result = .ok value else ∃ failure, result = .error failure

namespace Reads

variable {α β : Type}

theorem ok (value : α) : Reads true (.ok value) value :=
  rfl

theorem error (failure : ParseFailure) (value : α) : Reads false (.error failure) value :=
  ⟨failure, rfl⟩

/-- Two steps are valid together if both are. -/
theorem bind
    {valid validNext : Bool}
    {first : Except ParseFailure α}
    {next : α → Except ParseFailure β}
    {value : α}
    {final : β}
    (head : Reads valid first value)
    (tail : Reads validNext (next value) final) :
    Reads (valid && validNext) (first >>= next) final := by
  cases valid with
  | false =>
      rcases head with ⟨failure, failed⟩
      rw [failed]
      exact error failure final
  | true =>
      have found : first = .ok value := head
      rw [found]
      exact tail

theorem bind_ok
    {valid : Bool}
    {first : Except ParseFailure α}
    {next : α → Except ParseFailure β}
    {value : α}
    {final : β}
    (head : Reads valid first value)
    (tail : next value = .ok final) :
    Reads valid (first >>= next) final := by
  have both := head.bind (tail ▸ ok final)
  rwa [Bool.and_true] at both

end Reads

/-! ## What may stand behind -/

namespace Token

/-- Whether an operand can begin with the token or go on with it. -/
def isInOperand : Token → Bool
  | identifier _ | name _ | value _ | size | dot | openBracket => true
  | _ => false

/-- Whether a condition that begins with the token begins with no operand. -/
def isBeforeCondition : Token → Bool
  | not | openParenthesis | predicate _ => true
  | _ => false

theorem expect_cons (token : Token) (rest : List Token) :
    expect token (token :: rest) = .ok ((), rest) := by
  simp [expect]

end Token

/-- An operand ends where the tokens are at an end or go on with another kind. -/
def EndsOperand (rest : List Token) : Prop :=
  rest.head?.any Token.isInOperand = false

theorem endsOperand_closeParenthesis (rest : List Token) :
    EndsOperand (.closeParenthesis :: rest) :=
  rfl

theorem endsOperand_and (rest : List Token) : EndsOperand (.and :: rest) :=
  rfl

/-! ## Resolving -/

/-- The placeholders of the names and literals stand for them. -/
structure Naming.Resolves
    (naming : Naming)
    (references : References)
    (names : List String)
    (values : List AttributeValue) : Prop where
  name : ∀ name ∈ names,
    references.names.find? ("#" ++ Text.unmarked (naming.name name)) = some name
  value : ∀ value ∈ values,
    references.values.find? (":" ++ Text.unmarked (naming.value value)) = some value

theorem Naming.Resolves.mono
    {naming : Naming}
    {references : References}
    {names fewerNames : List String}
    {values fewerValues : List AttributeValue}
    (resolves : naming.Resolves references names values)
    (inNames : fewerNames ⊆ names)
    (inValues : fewerValues ⊆ values) :
    naming.Resolves references fewerNames fewerValues :=
  ⟨fun name member => resolves.name name (inNames member),
    fun value member => resolves.value value (inValues member)⟩

/-- The placeholders of an operand stand for what it mentions. -/
def Operand.Resolves (naming : Naming) (references : References) (operand : Operand) : Prop :=
  naming.Resolves references operand.names operand.literals

namespace References

variable {naming : Naming} {references : References}

/-! ## Paths -/

/-- A token that is no name is no name of a path element. -/
theorem parseName_refuses
    {rest : List Token}
    (ends : EndsOperand rest) :
    ∃ failure, references.parseName rest = .error failure := by
  cases rest with
  | nil => exact ⟨_, rfl⟩
  | cons token rest =>
      cases token <;> first | exact ⟨_, rfl⟩ | cases ends

theorem parseElements_tokens
    {elements : List PathElement}
    {rest : List Token}
    {fuel : Nat}
    (resolves : naming.Resolves references (Path.names ⟨elements⟩) [])
    (ends : EndsOperand rest)
    (enough : elements.length ≤ fuel) :
    references.parseElements fuel (Path.elementTokens naming elements ++ rest) =
      .ok (elements, rest) := by
  induction elements generalizing fuel with
  | nil =>
      cases rest with
      | nil => cases fuel <;> rfl
      | cons token rest =>
          cases fuel <;> cases token <;> first | rfl | cases ends
  | cons element elements ih =>
      cases fuel with
      | zero => simp at enough
      | succ fuel =>
          have others := @ih fuel
          have enoughLeft : elements.length ≤ fuel := Nat.le_of_succ_le_succ enough
          cases element with
          | «attribute» name =>
              have here := resolves.name name List.mem_cons_self
              have fewer := resolves.mono (List.subset_cons_self _ _) (List.Subset.refl _)
              simp only [Path.elementTokens, List.cons_append, parseElements, parseName, here,
                ok_bind, others fewer enoughLeft]
              rfl
          | index position =>
              simp only [Path.elementTokens, List.cons_append, parseElements,
                Token.expect_cons, ok_bind, others resolves enoughLeft]
              rfl

theorem length_le_length_elementTokens (elements : List PathElement) :
    elements.length ≤ (Path.elementTokens naming elements).length := by
  induction elements with
  | nil => exact Nat.le_refl 0
  | cons element elements ih =>
      cases element <;> simp only [Path.elementTokens, List.length_cons] <;> omega

theorem reads_parsePath
    {path : Path}
    {rest : List Token}
    (resolves : naming.Resolves references path.names [])
    (ends : EndsOperand rest) :
    Reads path.isRooted (references.parsePath (path.tokens naming ++ rest)) (path, rest) := by
  rcases path with ⟨elements⟩
  match elements with
  | [] =>
      rcases @parseName_refuses references rest ends with ⟨failure, failed⟩
      refine ⟨failure, ?_⟩
      simp only [Path.tokens, Path.elementTokens, List.nil_append, parsePath, failed]
      rfl
  | .index position :: elements => exact ⟨_, rfl⟩
  | .attribute name :: elements =>
      have here := resolves.name name List.mem_cons_self
      have fewer := resolves.mono (List.subset_cons_self _ _) (List.Subset.refl _)
      have enough :
          elements.length ≤ (Path.elementTokens naming elements ++ rest).length := by
        rw [List.length_append]
        exact Nat.le_trans (length_le_length_elementTokens elements) (Nat.le_add_right _ _)
      have others := parseElements_tokens fewer ends enough
      change references.parsePath _ = _
      simp only [Path.tokens, List.cons_append, parsePath, parseName, here, ok_bind, others]
      rfl

/-! ## Operands -/

theorem reads_parseOperand
    {operand : Operand}
    {rest : List Token}
    (resolves : operand.Resolves naming references)
    (ends : EndsOperand rest) :
    Reads operand.isWellFormed
      (references.parseOperand (operand.tokens naming ++ rest)) (operand, rest) := by
  cases operand with
  | value literal =>
      have here := resolves.value literal List.mem_cons_self
      change references.parseOperand _ = _
      simp only [Operand.tokens, List.cons_append, List.nil_append, parseOperand, here]
  | size place =>
      have path : Reads place.isRooted
          (references.parsePath (place.tokens naming ++ .closeParenthesis :: rest))
          (place, .closeParenthesis :: rest) := reads_parsePath resolves rfl
      simp only [Operand.tokens, List.cons_append, List.append_assoc, List.nil_append,
        parseOperand, Token.expect_cons, ok_bind]
      exact path.bind_ok rfl
  | path place =>
      have plain :
          references.parseOperand (place.tokens naming ++ rest) =
            references.parsePath (place.tokens naming ++ rest) >>= fun parsed =>
              .ok (.path parsed.1, parsed.2) := by
        rcases place with ⟨elements⟩
        cases elements with
        | nil =>
            cases rest with
            | nil => rfl
            | cons token rest => cases token <;> first | rfl | cases ends
        | cons element elements => cases element <;> rfl
      rw [Operand.tokens, plain]
      exact (reads_parsePath resolves ends).bind_ok rfl

/-- The tokens of operands with a comma before each of them. -/
def commaTokens (naming : Naming) (operands : List Operand) : List Token :=
  operands.flatMap fun operand => .comma :: operand.tokens naming

theorem tokensAll_cons (operand : Operand) (operands : List Operand) :
    Operand.tokensAll naming (operand :: operands) =
      operand.tokens naming ++ commaTokens naming operands := by
  induction operands generalizing operand with
  | nil => simp [Operand.tokensAll, commaTokens]
  | cons second operands ih =>
      change operand.tokens naming ++ .comma :: Operand.tokensAll naming (second :: operands) = _
      rw [ih]
      rfl

theorem length_le_length_commaTokens (operands : List Operand) :
    operands.length ≤ (commaTokens naming operands).length := by
  induction operands with
  | nil => exact Nat.le_refl 0
  | cons operand operands ih =>
      simp only [commaTokens, List.flatMap_cons, List.length_append, List.length_cons] at ih ⊢
      omega

theorem endsOperand_commaTokens (operands : List Operand) (rest : List Token) :
    EndsOperand (commaTokens naming operands ++ .closeParenthesis :: rest) := by
  cases operands <;> rfl

theorem reads_parseMoreOperands
    {operands : List Operand}
    {fuel : Nat}
    (resolves : ∀ operand ∈ operands, operand.Resolves naming references)
    (enough : operands.length ≤ fuel)
    (rest : List Token) :
    Reads (operands.all Operand.isWellFormed)
      (references.parseMoreOperands fuel
        (commaTokens naming operands ++ .closeParenthesis :: rest))
      (operands, .closeParenthesis :: rest) := by
  induction operands generalizing fuel with
  | nil => cases fuel <;> exact .ok _
  | cons operand operands ih =>
      cases fuel with
      | zero => simp at enough
      | succ fuel =>
          have first := resolves operand List.mem_cons_self
          have others := @ih fuel
            (fun operand member => resolves operand (List.mem_cons_of_mem _ member))
            (Nat.le_of_succ_le_succ enough)
          have tokens :
              commaTokens naming (operand :: operands) ++ .closeParenthesis :: rest =
                .comma :: (operand.tokens naming ++
                  (commaTokens naming operands ++ .closeParenthesis :: rest)) := by
            simp [commaTokens]
          rw [tokens, parseMoreOperands]
          exact (reads_parseOperand first (endsOperand_commaTokens operands rest)).bind
            (others.bind_ok rfl)

theorem reads_parseOperands
    {operands : List Operand}
    (resolves : ∀ operand ∈ operands, operand.Resolves naming references)
    (rest : List Token) :
    Reads (!operands.isEmpty && operands.all Operand.isWellFormed)
      (references.parseOperands
        (Operand.tokensAll naming operands ++ .closeParenthesis :: rest))
      (operands, .closeParenthesis :: rest) := by
  cases operands with
  | nil => exact ⟨_, rfl⟩
  | cons operand operands =>
      have first := resolves operand List.mem_cons_self
      have enough : operands.length ≤
          (commaTokens naming operands ++ .closeParenthesis :: rest).length := by
        rw [List.length_append]
        exact Nat.le_trans (length_le_length_commaTokens operands) (Nat.le_add_right _ _)
      have others := reads_parseMoreOperands
        (fun operand member => resolves operand (List.mem_cons_of_mem _ member)) enough rest
      rw [tokensAll_cons, List.append_assoc]
      exact (reads_parseOperand first (endsOperand_commaTokens operands rest)).bind
        (others.bind_ok rfl)

/-! ## Conditions -/

/-- The arguments of a predicate are read if they are well formed and fit it. -/
theorem reads_parseTest
    {predicate : Predicate}
    {arguments : List Operand}
    (resolves : ∀ operand ∈ arguments, operand.Resolves naming references)
    (rest : List Token) :
    Reads (Condition.test predicate arguments).isWellFormed
      (references.parseTest predicate
        (.openParenthesis ::
          (Operand.tokensAll naming arguments ++ .closeParenthesis :: rest)))
      (.test predicate arguments, rest) := by
  have needed : (Condition.test predicate arguments).isWellFormed =
      ((!arguments.isEmpty && arguments.all Operand.isWellFormed) &&
        predicate.accepts arguments) := by
    cases arguments with
    | nil => simp [Condition.isWellFormed, Predicate.accepts]
    | cons => rfl
  rw [needed, parseTest, Token.expect_cons, ok_bind]
  apply (reads_parseOperands resolves rest).bind
  simp only [Token.expect_cons, ok_bind]
  split
  next wrong =>
    have refused : predicate.accepts arguments = false := by
      simp [Predicate.accepts, wrong]
    exact refused ▸ .error _ _
  next right =>
    have number : arguments.length = predicate.arity := not_not.1 right
    cases arguments with
    | nil => simpa [Predicate.accepts] using .error _ _
    | cons argument arguments =>
        cases argument with
        | path _ => simpa [Predicate.accepts, number] using .ok _
        | value _ => simpa [Predicate.accepts] using .error _ _
        | size _ => simpa [Predicate.accepts] using .error _ _

/-- A chain of one condition is that condition, if no connective follows. -/
theorem reads_parseChain_single
    {word : Token}
    {connective : Connective}
    {part : List Token → Except ParseFailure (Condition × List Token)}
    {valid : Bool}
    {tokens rest : List Token}
    {next : Token}
    {condition : Condition}
    (first : Reads valid (part tokens) (condition, next :: rest))
    (other : next ≠ word) :
    Reads valid (parseChain word connective part tokens) (condition, next :: rest) := by
  apply first.bind_ok
  simp only [List.length_cons, parseMore, if_neg other]

/-- A chain of two conditions is joined from them, if no connective follows. -/
theorem reads_parseChain_pair
    {word : Token}
    {connective : Connective}
    {part : List Token → Except ParseFailure (Condition × List Token)}
    {validLeft validRight : Bool}
    {tokens between rest : List Token}
    {next : Token}
    {left right : Condition}
    (first : Reads validLeft (part tokens) (left, word :: between))
    (second : Reads validRight (part between) (right, next :: rest))
    (other : next ≠ word) :
    Reads (validLeft && validRight) (parseChain word connective part tokens)
      (.joined connective left right, next :: rest) := by
  apply first.bind
  simp only [List.length_cons, parseMore, if_true]
  apply second.bind_ok
  cases between.length with
  | zero => rfl
  | succ fuel => simp only [parseMore, if_neg other]

/-- A condition without connectives that ends at a token other than AND and OR is
a condition. -/
theorem reads_parseCondition_single
    {valid : Bool}
    {depth : Nat}
    {tokens rest : List Token}
    {next : Token}
    {condition : Condition}
    (negation : Reads valid
      (references.parseNegation (references.parseCondition depth) tokens)
      (condition, next :: rest))
    (notAnd : next ≠ .and)
    (notOr : next ≠ .or) :
    Reads valid (references.parseCondition (depth + 1) tokens) (condition, next :: rest) :=
  reads_parseChain_single (reads_parseChain_single negation notAnd) notOr

/-- Two conditions with a connective between them are joined. -/
theorem reads_parseCondition_pair
    {validLeft validRight : Bool}
    {depth : Nat}
    {connective : Connective}
    {tokens between rest : List Token}
    {left right : Condition}
    (first : Reads validLeft
      (references.parseNegation (references.parseCondition depth) tokens)
      (left, connective.token :: between))
    (second : Reads validRight
      (references.parseNegation (references.parseCondition depth) between)
      (right, .closeParenthesis :: rest)) :
    Reads (validLeft && validRight) (references.parseCondition (depth + 1) tokens)
      (.joined connective left right, .closeParenthesis :: rest) := by
  cases connective with
  | and =>
      exact reads_parseChain_single (reads_parseChain_pair first second (by decide))
        (by decide)
  | or =>
      exact reads_parseChain_pair (reads_parseChain_single first (by decide))
        (reads_parseChain_single second (by decide)) (by decide)

/-- What parentheses hold is read as it stands. -/
theorem reads_parsePrimary_parentheses
    {valid : Bool}
    {inner : List Token → Except ParseFailure (Condition × List Token)}
    {tokens rest : List Token}
    {condition : Condition}
    (held : Reads valid (inner tokens) (condition, .closeParenthesis :: rest)) :
    Reads valid (references.parsePrimary inner (.openParenthesis :: tokens))
      (condition, rest) := by
  apply held.bind_ok
  simp only [Token.expect_cons, ok_bind]
  rfl

/-- An operand with a relation behind it begins with no sign of a condition. -/
theorem parseNegation_operand
    (inner : List Token → Except ParseFailure (Condition × List Token))
    (operand : Operand)
    {next : Token}
    (plain : next.isBeforeCondition = false)
    (rest : List Token) :
    references.parseNegation inner (operand.tokens naming ++ next :: rest) =
      references.parseOperand (operand.tokens naming ++ next :: rest) >>=
        fun (left, rest) => references.parseRelation left rest := by
  have begins {token : Token} {tokens : List Token}
      (quiet : token.isBeforeCondition = false) :
      references.parseNegation inner (token :: tokens) =
        references.parseOperand (token :: tokens) >>=
          fun (left, rest) => references.parseRelation left rest := by
    cases token <;> first | rfl | cases quiet
  cases operand with
  | value literal => exact begins rfl
  | size place => exact begins rfl
  | path place =>
      rcases place with ⟨elements⟩
      match elements with
      | [] => exact begins plain
      | .attribute name :: elements => exact begins rfl
      | .index position :: elements => exact begins rfl

/-- An operand and the relation behind it are a condition in parentheses. -/
theorem reads_relation
    {operand : Operand}
    {validRelation : Bool}
    {depth : Nat}
    {next : Token}
    {tokens rest : List Token}
    {condition : Condition}
    (resolves : operand.Resolves naming references)
    (ends : next.isInOperand = false)
    (plain : next.isBeforeCondition = false)
    (relation : Reads validRelation (references.parseRelation operand (next :: tokens))
      (condition, .closeParenthesis :: rest)) :
    Reads (operand.isWellFormed && validRelation)
      (references.parsePrimary (references.parseCondition (depth + 1))
        (.openParenthesis :: (operand.tokens naming ++ next :: tokens)))
      (condition, rest) := by
  refine reads_parsePrimary_parentheses
    (reads_parseCondition_single ?_ (by decide) (by decide))
  rw [parseNegation_operand _ operand plain]
  exact (reads_parseOperand resolves (by simpa [EndsOperand] using ends)).bind relation

end References

/-- The most parentheses that are open at once in the text of a condition. -/
def Condition.depth : Condition → Nat
  | compare .. | between .. | among .. => 1
  | joined _ left right => max left.depth right.depth + 1
  | not inner => inner.depth + 1
  | test .. => 0

namespace References

variable {naming : Naming} {references : References}

/-- The tokens of a condition begin with no NOT. -/
theorem parseNegation_tokens
    (inner : List Token → Except ParseFailure (Condition × List Token))
    (condition : Condition)
    (rest : List Token) :
    references.parseNegation inner (condition.tokens naming ++ rest) =
      references.parsePrimary inner (condition.tokens naming ++ rest) := by
  cases condition <;> rfl

/-- The tokens of a condition are read as the condition if it is well formed, and
are refused otherwise. -/
theorem reads_parsePrimary
    {condition : Condition}
    {depth : Nat}
    (resolves : ∀ operand ∈ condition.operands, operand.Resolves naming references)
    (deep : condition.depth ≤ depth)
    (rest : List Token) :
    Reads condition.isWellFormed
      (references.parsePrimary (references.parseCondition depth)
        (condition.tokens naming ++ rest))
      (condition, rest) := by
  induction condition generalizing depth rest with
  | compare left operator right =>
      rcases Nat.exists_eq_add_one_of_ne_zero (Nat.ne_of_gt deep) with ⟨depth, rfl⟩
      have second := resolves right (by simp [Condition.operands])
      simp only [Condition.tokens, Condition.isWellFormed, List.cons_append,
        List.append_assoc, List.nil_append]
      exact reads_relation (resolves left (by simp [Condition.operands])) rfl rfl
        ((reads_parseOperand second (endsOperand_closeParenthesis rest)).bind_ok rfl)
  | between value low high =>
      rcases Nat.exists_eq_add_one_of_ne_zero (Nat.ne_of_gt deep) with ⟨depth, rfl⟩
      have second := resolves low (by simp [Condition.operands])
      have third := resolves high (by simp [Condition.operands])
      simp only [Condition.tokens, Condition.isWellFormed, List.cons_append,
        List.append_assoc, List.nil_append, Bool.and_assoc]
      apply reads_relation (resolves value (by simp [Condition.operands])) rfl rfl
      apply (reads_parseOperand second (endsOperand_and _)).bind
      simp only [Token.expect_cons, ok_bind]
      exact (reads_parseOperand third (endsOperand_closeParenthesis rest)).bind_ok rfl
  | among value candidates =>
      rcases Nat.exists_eq_add_one_of_ne_zero (Nat.ne_of_gt deep) with ⟨depth, rfl⟩
      have others : ∀ operand ∈ candidates, operand.Resolves naming references :=
        fun operand member => resolves operand (List.mem_cons_of_mem value member)
      simp only [Condition.tokens, Condition.isWellFormed, List.cons_append,
        List.append_assoc, List.nil_append, Bool.and_assoc]
      apply reads_relation (resolves value (by simp [Condition.operands])) rfl rfl
      simp only [parseRelation, Token.expect_cons, ok_bind]
      apply (reads_parseOperands others (.closeParenthesis :: rest)).bind_ok
      simp only [Token.expect_cons, ok_bind]
      rfl
  | joined connective left right leftIH rightIH =>
      rcases Nat.exists_eq_add_one_of_ne_zero
        (Nat.ne_of_gt (Nat.lt_of_lt_of_le (Nat.succ_pos _) deep)) with ⟨depth, rfl⟩
      have bounds := Nat.max_le.1 (Nat.le_of_succ_le_succ deep)
      have first := leftIH
        (fun operand member => resolves operand (List.mem_append_left _ member)) bounds.1
        (connective.token :: (right.tokens naming ++ .closeParenthesis :: rest))
      have second := rightIH
        (fun operand member => resolves operand (List.mem_append_right _ member)) bounds.2
        (.closeParenthesis :: rest)
      rw [← parseNegation_tokens] at first second
      simp only [Condition.tokens, Condition.isWellFormed, List.cons_append,
        List.append_assoc, List.nil_append]
      exact reads_parsePrimary_parentheses (reads_parseCondition_pair first second)
  | not inner ih =>
      rcases Nat.exists_eq_add_one_of_ne_zero
        (Nat.ne_of_gt (Nat.lt_of_lt_of_le (Nat.succ_pos _) deep)) with ⟨depth, rfl⟩
      have held := ih resolves (Nat.le_of_succ_le_succ deep) (.closeParenthesis :: rest)
      rw [← parseNegation_tokens] at held
      simp only [Condition.tokens, List.cons_append, List.append_assoc, List.nil_append]
      refine reads_parsePrimary_parentheses
        (reads_parseCondition_single ?_ (by decide) (by decide))
      exact held.bind_ok rfl
  | test predicate arguments =>
      simp only [Condition.tokens, List.cons_append, List.append_assoc, List.nil_append]
      exact reads_parseTest resolves rest

/-- A condition has at least as many tokens as parentheses are open at once. -/
theorem depth_le_length_tokens (naming : Naming) (condition : Condition) :
    condition.depth ≤ (condition.tokens naming).length := by
  induction condition with
  | joined connective left right leftIH rightIH =>
      simp only [Condition.depth, Condition.tokens, List.length_cons, List.length_append]
      omega
  | not inner ih =>
      simp only [Condition.depth, Condition.tokens, List.length_cons, List.length_append]
      omega
  | _ => simp [Condition.depth, Condition.tokens]

/-- The tokens of a condition, up to the end of input, are read as the condition
if it is well formed, and are refused otherwise. -/
theorem reads_condition
    {condition : Condition}
    (resolves : ∀ operand ∈ condition.operands, operand.Resolves naming references) :
    Reads condition.isWellFormed
      (references.condition (condition.tokens naming ++ [Token.endOfInput])) condition := by
  have primary := reads_parsePrimary resolves (depth_le_length_tokens naming condition)
    [Token.endOfInput]
  rw [← parseNegation_tokens] at primary
  have whole := reads_parseCondition_single primary (by decide) (by decide)
  have length :
      (condition.tokens naming ++ [Token.endOfInput]).length =
        (condition.tokens naming).length + 1 := by
    simp
  rw [← length] at whole
  exact whole.bind_ok rfl

end References

end ItemTable
