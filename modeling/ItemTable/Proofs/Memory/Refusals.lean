import ItemTable.Proofs.Memory.Listing
import ItemTable.Proofs.Memory.Writes

/-!
# Why a memory refuses a request

A request can be malformed: an expression cannot be read, a placeholder stands for
nothing or is never mentioned, or its limit or its selection is refused.  All other
errors are about what is stored, or about keys and values that do not fit it.  The texts
of errors tell the two apart.
-/

namespace ItemTable

/-! ## Evaluation -/

/-- Whether an error is about the values that a condition meets, not about its text. -/
def ExpressionError.isOfValues : ExpressionError → Bool
  | notANumber _ | notAKind => true
  | _ => false

section

variable {error : ExpressionError} {item : Item}

theorem AttributeValue.isOfValues_of_readNumber
    {text : String}
    (failed : readNumber text = .error error) :
    error.isOfValues := by
  rw [readNumber] at failed
  split at failed
  · cases failed
  · cases failed
    rfl

theorem AttributeValue.isOfValues_of_order?
    {left right : AttributeValue}
    (failed : left.order? right = .error error) :
    error.isOfValues := by
  unfold order? at failed
  split at failed
  · cases failed
  · rcases bind_eq_error.mp failed with noLeft | ⟨_, -, others⟩
    · exact isOfValues_of_readNumber noLeft
    · rcases bind_eq_error.mp others with noRight | ⟨_, -, ⟨⟩⟩
      exact isOfValues_of_readNumber noRight
  · cases failed
  · cases failed

theorem AttributeValue.isOfValues_of_relates
    {left right : AttributeValue}
    {operator : Comparison}
    (failed : left.relates operator right = .error error) :
    error.isOfValues := by
  rcases bind_eq_error.mp failed with unordered | ⟨order, -, others⟩
  · exact isOfValues_of_order? unordered
  · cases order with
    | none => cases operator <;> cases others
    | some order => cases others

theorem Predicate.isOfValues_of_holds
    {predicate : Predicate}
    {arguments : List Operand}
    (accepts : predicate.accepts arguments)
    (failed : predicate.holds arguments item = .error error) :
    error.isOfValues := by
  unfold Predicate.holds at failed
  split at failed
  · dsimp only at failed
    cases predicate with
    | attributeType =>
        dsimp only at failed
        split at failed
        · cases failed
        · cases failed
          rfl
    | attributeExists | attributeNotExists => cases failed
    | beginsWith | contains =>
        dsimp only at failed
        split at failed <;> cases failed
  · rename_i noPath
    rcases Bool.and_eq_true_iff.mp accepts with ⟨-, isPath⟩
    split at isPath
    · exact absurd rfl (noPath _ _)
    · cases isPath

namespace Condition

theorem isOfValues_of_equalsOne
    {value : AttributeValue}
    {candidates : List Operand}
    (failed : equalsOne value item candidates = .error error) :
    error.isOfValues := by
  induction candidates with
  | nil => cases failed
  | cons candidate candidates ih =>
      rw [equalsOne] at failed
      split at failed
      · exact ih failed
      · rcases bind_eq_error.mp failed with unrelated | ⟨equal, -, others⟩
        · exact AttributeValue.isOfValues_of_relates unrelated
        · cases equal with
          | true => cases others
          | false => exact ih others

/-- A condition that an expression can say fails only because of values. -/
theorem isOfValues_of_holds
    {condition : Condition}
    (valid : condition.isWellFormed)
    (failed : condition.holds item = .error error) :
    error.isOfValues := by
  induction condition with
  | compare left operator right =>
      rw [holds] at failed
      split at failed
      · exact AttributeValue.isOfValues_of_relates failed
      · cases failed
  | between value low high =>
      rw [holds] at failed
      split at failed
      · rcases bind_eq_error.mp failed with unrelated | ⟨enough, -, others⟩
        · exact AttributeValue.isOfValues_of_relates unrelated
        · cases enough with
          | true => exact AttributeValue.isOfValues_of_relates others
          | false => cases others
      · cases failed
  | among value candidates =>
      rw [holds] at failed
      split at failed
      · exact isOfValues_of_equalsOne failed
      · cases failed
  | joined connective left right leftIH rightIH =>
      rcases Bool.and_eq_true_iff.mp valid with ⟨validLeft, validRight⟩
      cases connective with
      | and =>
          rw [holds] at failed
          rcases bind_eq_error.mp failed with noLeft | ⟨isTrue, -, others⟩
          · exact leftIH validLeft noLeft
          · cases isTrue with
            | true => exact rightIH validRight others
            | false => cases others
      | or =>
          rw [holds] at failed
          rcases bind_eq_error.mp failed with noLeft | ⟨isTrue, -, others⟩
          · exact leftIH validLeft noLeft
          · cases isTrue with
            | true => cases others
            | false => exact rightIH validRight others
  | not inner ih =>
      rw [holds] at failed
      rcases bind_eq_error.mp failed with noInner | ⟨_, -, ⟨⟩⟩
      exact ih valid noInner
  | test predicate arguments =>
      rcases Bool.and_eq_true_iff.mp valid with ⟨-, accepts⟩
      exact Predicate.isOfValues_of_holds accepts failed

end Condition

end

/-! ## How texts begin -/

/-- A text begins with some characters. -/
def Text.Begins (start : List Char) (text : String) : Prop :=
  start <+: text.toList

namespace Text.Begins

variable {start other : List Char} {text : String}

theorem literal (start rest : List Char) : Begins start (String.ofList (start ++ rest)) := by
  rw [Begins, String.toList_ofList]
  exact List.prefix_append start rest

theorem append (begins : Begins start text) (rest : String) : Begins start (text ++ rest) := by
  rw [Begins, String.toList_append]
  exact begins.trans (List.prefix_append _ _)

/-- A text begins in one way. -/
theorem unique
    (begins : Begins start text)
    (again : Begins other text)
    (sameLength : start.length = other.length) :
    start = other :=
  (List.prefix_of_prefix_length_le begins again sameLength.le).eq_of_length sameLength

end Text.Begins

/-- A text begins in one of some ways. -/
def Text.BeginsAny (starts : List (List Char)) (text : String) : Prop :=
  ∃ start ∈ starts, Begins start text

/-- No text begins in two ways that are told apart. -/
theorem Text.BeginsAny.apart
    {starts others : List (List Char)}
    {text : String}
    (begins : BeginsAny starts text)
    (again : BeginsAny others text)
    (distinct : ∀ start ∈ starts, ∀ other ∈ others,
      start.length = other.length ∧ start ≠ other) :
    False := by
  rcases begins with ⟨start, isStart, here⟩
  rcases again with ⟨other, isOther, there⟩
  rcases distinct start isStart other isOther with ⟨sameLength, different⟩
  exact different (here.unique there sameLength)

open Text (Begins BeginsAny)

theorem ExpressionError.begins_of_isOfValues
    {error : ExpressionError}
    (ofValues : error.isOfValues) :
    BeginsAny [['T', 'y']] error.message := by
  refine ⟨['T', 'y'], by decide, ?_⟩
  cases error with
  | notANumber => exact ((Begins.literal _ _).append _).append _
  | notAKind => exact .literal _ _
  | _ => cases ofValues

theorem ExpressionError.begins_of_not_isOfValues
    {error : ExpressionError}
    (ofText : ¬error.isOfValues) :
    BeginsAny [['S', 'y'], ['T', 'h'], ['A', 'n'], ['V', 'a'], ['I', 'n']] error.message := by
  cases error with
  | unexpected =>
      exact ⟨['S', 'y'], by decide, (((Begins.literal _ _).append _).append _).append _⟩
  | empty => exact ⟨['T', 'h'], by decide, .literal _ _⟩
  | unresolvedName | unresolvedValue =>
      exact ⟨['A', 'n'], by decide, ((Begins.literal _ _).append _).append _⟩
  | unusedNames | unusedValues =>
      exact ⟨['V', 'a'], by decide, (((Begins.literal _ _).append _).append _).append _⟩
  | indexTooLarge =>
      exact ⟨['I', 'n'], by decide, ((Begins.literal _ _).append _).append _⟩
  | wrongArity =>
      exact ⟨['I', 'n'], by decide,
        (((((Begins.literal _ _).append _).append _).append _).append _).append _⟩
  | notAPath =>
      exact ⟨['I', 'n'], by decide, ((Begins.literal _ _).append _).append _⟩
  | notANumber | notAKind => exact absurd rfl ofText

theorem KeyError.begins (error : KeyError) : BeginsAny [['O'], ['T']] error.message := by
  cases error with
  | missing => exact ⟨['O'], by decide, (Begins.literal _ _).append _⟩
  | wrongKind =>
      exact ⟨['T'], by decide,
        (((((Begins.literal _ _).append _).append _).append _).append _).append _⟩
  | mismatch => exact ⟨['T'], by decide, .literal _ _⟩
  | unknownIndex => exact ⟨['T'], by decide, (Begins.literal _ _).append _⟩

theorem SelectionFault.begins (fault : SelectionFault) :
    BeginsAny [['O'], ['Q']] fault.message := by
  cases fault with
  | wrongKind => exact ⟨['O'], by decide, ((Begins.literal _ _).append _).append _⟩
  | notAKey => exact ⟨['Q'], by decide, ((Begins.literal _ _).append _).append _⟩
  | _ => exact ⟨['Q'], by decide, (Begins.literal _ _).append _⟩

/-! ## Malformed requests -/

namespace Memory

/-- The parts of a request that the errors for its expressions name. -/
def expressionParts : List String :=
  ["KeyConditionExpression", "FilterExpression", "ProjectionExpression",
    "ConditionExpression", "ExpressionAttributes"]

/-- The errors for what a request says, whatever is stored. -/
inductive IsMalformed (error : ServiceError) : Prop
  /-- An expression cannot be read, or its placeholders are not those that are explained. -/
  | expression
      {part : String}
      {cause : ExpressionError}
      (isPart : part ∈ expressionParts)
      (ofText : ¬cause.isOfValues)
      (isError : error = invalid part cause)
  | limit
      {limit : Option Int}
      (refused : readLimit limit = .error error)
  | select
      {select : Option Select}
      {projection : Option String}
      (refused : checkSelect select projection = .error error)

/-- The errors for what is stored and for the keys and values that meet it. -/
inductive IsOfData : ServiceError → Prop
  | table (name : String) : IsOfData (unknownTable name)
  | key (cause : KeyError) : IsOfData (.validation cause.message)
  | selection (fault : SelectionFault) : IsOfData (.validation fault.message)
  | evaluation
      {part : String}
      {cause : ExpressionError}
      (isPart : part ∈ expressionParts)
      (ofValues : cause.isOfValues) :
      IsOfData (invalid part cause)
  | unmet (message : String) : IsOfData (.checkFailed message)

variable {error : ServiceError}

theorem colon_free_of_mem_expressionParts :
    ∀ part ∈ expressionParts, ∀ char ∈ part.toList, char != ':' := by
  simp [expressionParts]

/-- The text of an error for an expression tells the part of the request, which has no
colon, from what is wrong with it. -/
theorem message_eq_of_invalid_eq
    {part other : String}
    {first second : ExpressionError}
    (isPart : part ∈ expressionParts)
    (isOther : other ∈ expressionParts)
    (same : invalid part first = invalid other second) :
    first.message = second.message := by
  have texts : ("Invalid " ++ part ++ ": " ++ first.message).toList =
      ("Invalid " ++ other ++ ": " ++ second.message).toList :=
    congrArg (fun error : ServiceError => (error.message.getD "").toList) same
  simp only [String.toList_append, List.append_assoc] at texts
  have behind := congrArg (List.dropWhile (· != ':')) (List.append_cancel_left texts)
  rw [List.dropWhile_append_of_pos (colon_free_of_mem_expressionParts part isPart),
    List.dropWhile_append_of_pos (colon_free_of_mem_expressionParts other isOther)] at behind
  have begun : ": ".toList ++ first.message.toList = ": ".toList ++ second.message.toList := behind
  exact String.toList_inj.mp (List.append_cancel_left begun)

theorem code_of_isMalformed (malformed : IsMalformed error) : error.code = .validation := by
  cases malformed with
  | expression isPart ofText isError =>
      rw [isError]
      rfl
  | limit refused =>
      unfold readLimit at refused
      split at refused
      · cases refused
      · split at refused <;> cases refused
        rfl
  | select refused =>
      unfold checkSelect at refused
      split at refused <;> cases refused <;> rfl

theorem begins_invalid (part : String) (cause : ExpressionError) :
    BeginsAny [['I']] ((invalid part cause).message.getD "") :=
  ⟨['I'], by decide, (((Begins.literal _ _).append _).append _).append _⟩

theorem begins_of_readLimit
    {limit : Option Int}
    (refused : readLimit limit = .error error) :
    BeginsAny [['L']] (error.message.getD "") := by
  unfold readLimit at refused
  split at refused
  · cases refused
  · split at refused <;> cases refused
    exact ⟨['L'], by decide, .literal _ _⟩

theorem begins_of_checkSelect
    {select : Option Select}
    {projection : Option String}
    (refused : checkSelect select projection = .error error) :
    BeginsAny [['C'], ['S']] (error.message.getD "") := by
  unfold checkSelect at refused
  split at refused <;> cases refused
  · exact ⟨['C'], by decide, (Begins.literal _ _).append _⟩
  · exact ⟨['C'], by decide, (Begins.literal _ _).append _⟩
  · exact ⟨['S'], by decide, .literal _ _⟩

/-- An error that begins otherwise is not one for a malformed request. -/
theorem not_isMalformed_of_begins
    {starts : List (List Char)}
    (begins : BeginsAny starts (error.message.getD ""))
    (distinct : ∀ start ∈ starts, ∀ other ∈ [['I'], ['L'], ['C'], ['S']],
      start.length = other.length ∧ start ≠ other) :
    ¬IsMalformed error := by
  have otherwise {others : List (List Char)}
      (again : BeginsAny others (error.message.getD ""))
      (some : others ⊆ [['I'], ['L'], ['C'], ['S']]) :
      False :=
    begins.apart again fun start isStart other isOther =>
      distinct start isStart other (some isOther)
  rintro (⟨isPart, ofText, rfl⟩ | refused | refused)
  · exact otherwise (begins_invalid _ _) (by decide)
  · exact otherwise (begins_of_readLimit refused) (by decide)
  · exact otherwise (begins_of_checkSelect refused) (by decide)

/-- What is stored, and the keys and values that meet it, never make a request look
malformed. -/
theorem IsOfData.not_isMalformed (ofData : IsOfData error) : ¬IsMalformed error := by
  cases ofData with
  | table name => exact fun malformed => nomatch code_of_isMalformed malformed
  | key cause => exact not_isMalformed_of_begins cause.begins (by decide)
  | selection fault => exact not_isMalformed_of_begins fault.begins (by decide)
  | @evaluation part cause isPart ofValues =>
      rintro (@⟨other, error, isOther, ofText, same⟩ | refused | refused)
      · have texts := error.begins_of_not_isOfValues ofText
        rw [← message_eq_of_invalid_eq isPart isOther same] at texts
        exact texts.apart (cause.begins_of_isOfValues ofValues) (by decide)
      · exact (begins_invalid _ _).apart (begins_of_readLimit refused) (by decide)
      · exact (begins_invalid _ _).apart (begins_of_checkSelect refused) (by decide)
  | unmet message => exact fun malformed => nomatch code_of_isMalformed malformed

/-! ## Answers to requests that are not malformed -/

theorem isOfData_of_table
    {memory : Memory}
    {name : String}
    (failed : memory.table name = .error error) :
    IsOfData error := by
  rw [table] at failed
  split at failed <;> cases failed
  exact .table name

theorem isOfData_of_orKeyError
    {α : Type}
    {result : Except KeyError α}
    (failed : orKeyError result = .error error) :
    IsOfData error := by
  cases result <;> cases failed
  exact .key _

theorem isOfData_of_holds
    {condition : Condition}
    {item : Item}
    {part : String}
    (isPart : part ∈ expressionParts)
    (valid : condition.isWellFormed)
    (failed : orInvalid part (condition.holds item) = .error error) :
    IsOfData error := by
  rw [orInvalid_eq_mapError] at failed
  rcases mapError_eq_error.mp failed with ⟨cause, unknown, rfl⟩
  exact .evaluation isPart (Condition.isOfValues_of_holds valid unknown)

section

variable {memory : Memory} {condition : Option Condition}

theorem isOfData_of_check
    {stored : Option Item}
    (valid : ∀ tree ∈ condition, tree.isWellFormed)
    (failed : check condition stored = .error error) :
    IsOfData error := by
  cases condition with
  | none => cases failed
  | some tree =>
      rcases bind_eq_error.mp failed with unknown | ⟨holds, -, others⟩
      · exact isOfData_of_holds (by decide) (valid tree rfl) unknown
      · cases holds <;> cases others
        exact .unmet _

theorem isOfData_of_get
    {request : GetRequest}
    {paths : Option (List Path)}
    {next : Scope}
    (read : readProjection (.start request.names ∅) request.projection = .ok (paths, next))
    (finished : next.finish = .ok ())
    (failed : get request memory = .error error) :
    IsOfData error := by
  rcases bind_eq_error.mp failed with noTable | ⟨storage, -, others⟩
  · exact isOfData_of_table noTable
  · rcases bind_eq_error.mp others with noKey | ⟨key, -, answered⟩
    · exact isOfData_of_orKeyError noKey
    · rw [read, ok_bind] at answered
      dsimp only at answered
      rw [finished] at answered
      cases answered

theorem isOfData_of_put
    {request : PutRequest}
    (read : writeCondition request.names request.values request.condition = .ok condition)
    (valid : ∀ tree ∈ condition, tree.isWellFormed)
    (failed : (put request memory).1 = .error error) :
    IsOfData error := by
  rw [put, read] at failed
  cases found : memory.table request.tableName with
  | error cause =>
      rw [found] at failed
      cases failed
      exact isOfData_of_table found
  | ok storage =>
      rw [found, ok_bind, ok_bind] at failed
      dsimp only [pure, Except.pure] at failed
      rcases storage.putIf_cases request.item (check condition) with
        ⟨cause, -, refused⟩ | ⟨key, cause, -, checked, refused, -⟩ | ⟨key, -, -, made, -⟩
      · rw [refused] at failed
        cases failed
        exact .key cause
      · rw [refused] at failed
        cases failed
        exact isOfData_of_check valid checked
      · rw [made] at failed
        cases failed

theorem isOfData_of_delete
    {request : DeleteRequest}
    (read : writeCondition request.names request.values request.condition = .ok condition)
    (valid : ∀ tree ∈ condition, tree.isWellFormed)
    (failed : (delete request memory).1 = .error error) :
    IsOfData error := by
  rw [delete, read] at failed
  cases found : memory.table request.tableName with
  | error cause =>
      rw [found] at failed
      cases failed
      exact isOfData_of_table found
  | ok storage =>
      rw [found, ok_bind] at failed
      cases keyed : orKeyError (storage.schema.exactKey request.key) with
      | error cause =>
          rw [keyed] at failed
          cases failed
          exact isOfData_of_orKeyError keyed
      | ok key =>
          rw [keyed, ok_bind, ok_bind] at failed
          dsimp only [pure, Except.pure] at failed
          rcases storage.deleteIf_cases key (check condition) with
            ⟨cause, checked, refused⟩ | ⟨-, made, -⟩
          · rw [refused] at failed
            cases failed
            exact isOfData_of_check valid checked
          · rw [made] at failed
            cases failed

theorem isOfData_of_keepItems
    {items : List Item}
    (valid : ∀ tree ∈ condition, tree.isWellFormed)
    (failed : keepItems condition items = .error error) :
    IsOfData error := by
  cases condition with
  | none => cases failed
  | some filter =>
      change matching filter items = .error error at failed
      induction items with
      | nil => cases failed
      | cons item items ih =>
          rcases bind_eq_error.mp failed with unknown | ⟨holds, -, others⟩
          · exact isOfData_of_holds (by decide) (valid filter rfl) unknown
          · rcases bind_eq_error.mp others with unmatched | ⟨kept, -, ⟨⟩⟩
            exact ih unmatched

theorem isOfData_of_listing
    {storage : Storage}
    {document : Document}
    (failed : listing storage document condition = .error error) :
    IsOfData error := by
  cases condition with
  | none => exact isOfData_of_orKeyError failed
  | some tree =>
      rcases bind_eq_error.mp failed with noSchema | ⟨schema, -, others⟩
      · exact isOfData_of_orKeyError noSchema
      · split at others
        · cases others
          exact .selection _
        · exact isOfData_of_orKeyError others

/-- A page of a read that expressions can say fails only because of what is stored. -/
theorem isOfData_of_answer
    {terms : ReadTerms}
    {document : Document}
    (valid : terms.Valid)
    (failed : terms.answer document memory = .error error) :
    IsOfData error := by
  rcases bind_eq_error.mp failed with noTable | ⟨storage, -, others⟩
  · exact isOfData_of_table noTable
  · rw [reading_eq_ok valid, ok_bind] at others
    rcases bind_eq_error.mp others with unlisted | ⟨result, -, unpaged⟩
    · exact isOfData_of_listing unlisted
    · rcases bind_eq_error.mp unpaged with unkept | ⟨kept, -, ⟨⟩⟩
      apply isOfData_of_keepItems _ unkept
      intro tree isFilter
      exact (valid.conditions tree (List.mem_append_right _ (Option.mem_toList.mpr isFilter))).1

end

end Memory

end ItemTable
