import ItemTable.Proofs.Expression.Scopes
import ItemTable.Proofs.Service.Recording
import Mathlib.Data.List.Forall2

/-!
# Requests that explain what they mention

A request is resolved if it explains exactly the placeholders that its expressions
mention, each with a meaning of its own.  A table that was new and has met the names and
literals of all expressions, and no others, explains them in this way.
-/

namespace ItemTable

/-! ## Resolved requests -/

namespace Request

def projection : Request → Option String
  | get request => request.projection
  | query request => request.projection
  | scan request => request.projection
  | _ => none

/-- The texts of all expressions. -/
def expressions (request : Request) : List String :=
  request.keyCondition.toList ++
    (request.filter.toList ++ (request.condition.toList ++ request.projection.toList))

/-- A token stands in one of the expressions. -/
def Contains (request : Request) (token : Token) : Prop :=
  ∃ text ∈ request.expressions, ∃ tokens,
    References.scanExpression text = .ok tokens ∧ token ∈ tokens

/-- All expressions have tokens; what the request explains are the placeholders among
them, and no two of these stand for the same. -/
structure IsResolved (request : Request) : Prop where
  scanned : ∀ text ∈ request.expressions, ∃ tokens,
    References.scanExpression text = .ok tokens
  names : ∀ placeholder,
    placeholder ∈ request.names.names ↔
      ∃ word, placeholder = "#" ++ word ∧ request.Contains (.name word)
  values : ∀ placeholder,
    placeholder ∈ request.values.names ↔
      ∃ word, placeholder = ":" ++ word ∧ request.Contains (.value word)
  distinctNames : ∀ first second name,
    request.names.find? first = some name →
      request.names.find? second = some name → first = second
  distinctValues : ∀ first second value,
    request.values.find? first = some value →
      request.values.find? second = some value → first = second

end Request

/-! ## Texts that mention names and literals -/

/-- The tokens of some texts, part by part. -/
def References.Scans (texts : List String) (parts : List (List Token)) : Prop :=
  List.Forall₂ (fun text tokens => scanExpression text = .ok tokens) texts parts

namespace References.Scans

variable {texts : List String} {parts : List (List Token)}

theorem exists_tokens (scans : Scans texts parts) :
    ∀ text ∈ texts, ∃ tokens, scanExpression text = .ok tokens := by
  induction scans with
  | nil => nofun
  | cons first _ ih => exact List.forall_mem_cons.mpr ⟨⟨_, first⟩, ih⟩

/-- A token stands in one of the texts if it stands in a part. -/
theorem exists_text_iff (scans : Scans texts parts) (token : Token) :
    (∃ text ∈ texts, ∃ tokens, scanExpression text = .ok tokens ∧ token ∈ tokens) ↔
      token ∈ parts.flatten := by
  induction scans with
  | nil => simp
  | cons first _ ih => simp [first, ih]

end References.Scans

/-- Together, texts mention the placeholders of exactly the given names and literals. -/
def TextsMention
    (naming : Naming)
    (texts : List String)
    (names : List String)
    (values : List AttributeValue) : Prop :=
  ∃ parts, References.Scans texts parts ∧ Mentions naming parts.flatten names values

namespace TextsMention

variable
    {naming : Naming}
    {texts others : List String}
    {names moreNames : List String}
    {values moreValues : List AttributeValue}

theorem nil : TextsMention naming [] [] [] :=
  ⟨[], .nil, .nil⟩

theorem single
    {text : String}
    {tokens : List Token}
    (scanned : References.scanExpression text = .ok tokens)
    (mentions : Mentions naming tokens names values) :
    TextsMention naming [text] names values := by
  refine ⟨[tokens], .cons scanned .nil, ?_⟩
  rwa [List.flatten_singleton]

theorem append
    (first : TextsMention naming texts names values)
    (second : TextsMention naming others moreNames moreValues) :
    TextsMention naming (texts ++ others) (names ++ moreNames) (values ++ moreValues) := by
  rcases first with ⟨parts, scans, mentions⟩
  rcases second with ⟨moreParts, moreScans, moreMentions⟩
  refine ⟨parts ++ moreParts, List.rel_append scans moreScans, ?_⟩
  rw [List.flatten_append]
  exact mentions.append moreMentions

/-- A condition that a table knows mentions its names and literals. -/
theorem condition
    {table : PlaceholderTable}
    {condition : Condition}
    (sound : table.Sound)
    (knows : table.Knows condition.names condition.literals)
    (bounded : condition.isBounded) :
    TextsMention table.naming [condition.spell table.naming] condition.names
      condition.literals := by
  have marks (operand : Operand) (member : operand ∈ condition.operands) :=
    sound.marks (knows.operand member)
  apply single (References.scanExpression_spell fun operand member =>
    ⟨marks operand member, List.all_eq_true.mp bounded operand member⟩)
  exact (mentions_conditionTokens marks).concat rfl rfl

theorem paths
    {table : PlaceholderTable}
    {paths : List Path}
    (sound : table.Sound)
    (knows : table.Knows (paths.flatMap Path.names) [])
    (rooted : ∀ path ∈ paths, path.isRooted)
    (bounded : ∀ path ∈ paths, path.isBounded)
    (nonempty : paths ≠ []) :
    TextsMention table.naming [Path.spellAll table.naming paths]
      (paths.flatMap Path.names) [] := by
  apply single (References.scanExpression_spellAll (sound.marks knows) rooted bounded nonempty)
  exact (mentions_pathTokensAll (sound.marks knows)).concat rfl rfl

end TextsMention

/-! ## What a table explains -/

/-- The placeholders of a new allotment that has met some keys are those of the keys. -/
theorem Allotment.mem_names_meanings_allotAll
    {α : Type}
    [DecidableEq α]
    {stem placeholder : String}
    {keys : List α}
    (sound : ((Allotment.start stem).allotAll keys).Sound) :
    placeholder ∈ ((Allotment.start stem).allotAll keys).meanings.names ↔
      placeholder ∈ keys.map fun key =>
        (((Allotment.start stem).allotAll keys).assigned.lookup key).getD "" := by
  constructor
  · intro given
    apply Scope.mem_used_of_mem_meanings sound _ given
    intro key member
    exact List.mem_map_of_mem member
  · intro member
    rcases List.mem_map.mp member with ⟨key, met, rfl⟩
    rcases PlaceholderTable.exists_lookup_allotAll (.start stem) met with ⟨placeholder, known⟩
    rw [known, Option.getD_some]
    exact sound.mem_names_meanings.mpr ⟨key, known⟩

/-- A request is resolved by the table that has met what its expressions mention. -/
theorem TextsMention.isResolved
    {request : Request}
    {names : List String}
    {values : List AttributeValue}
    (texts : TextsMention (PlaceholderTable.meet .start names values).naming
      request.expressions names values)
    (isNames : request.names = (PlaceholderTable.meet .start names values).names.meanings)
    (isValues : request.values = (PlaceholderTable.meet .start names values).values.meanings) :
    request.IsResolved := by
  have sound := PlaceholderTable.Opening.start.sound.meet names values
  rcases texts with ⟨parts, scans, mentions⟩
  have contains (token : Token) : request.Contains token ↔ token ∈ parts.flatten :=
    scans.exists_text_iff token
  constructor
  · exact scans.exists_tokens
  · intro placeholder
    rw [isNames]
    refine (Allotment.mem_names_meanings_allotAll sound.names).trans ?_
    simp only [contains]
    rw [← Scope.mem_namesIn, mentions.names]
    rfl
  · intro placeholder
    rw [isValues]
    refine (Allotment.mem_names_meanings_allotAll sound.values).trans ?_
    simp only [contains]
    rw [← Scope.mem_valuesIn, mentions.values]
    rfl
  · rw [isNames]
    exact sound.names.find?_meanings_injective
  · rw [isValues]
    exact sound.values.find?_meanings_injective

/-! ## Compiled reads -/

namespace ReadTerms

variable {terms : ReadTerms}

theorem knows_condition
    {condition : Condition}
    (member : condition ∈ terms.conditions) :
    terms.table.Knows condition.names condition.literals := by
  have knows := PlaceholderTable.Extends.knows (.refl terms.table)
  constructor
  · intro name mentioned
    exact knows.name name
      (List.mem_append_left _ (List.mem_flatMap.mpr ⟨condition, member, mentioned⟩))
  · intro value mentioned
    exact knows.value value (List.mem_flatMap.mpr ⟨condition, member, mentioned⟩)

theorem textsMention_condition
    {condition : Option Condition}
    (bounded : terms.Bounded)
    (member : ∀ tree ∈ condition, tree ∈ terms.conditions) :
    TextsMention terms.table.naming (Document.text? (condition.map terms.written)).toList
      (condition.toList.flatMap Condition.names)
      (condition.toList.flatMap Condition.literals) := by
  cases condition with
  | none => exact .nil
  | some tree =>
      have isThere := member tree rfl
      rw [Option.toList_some, List.flatMap_singleton, List.flatMap_singleton]
      exact .condition terms.sound_table (knows_condition isThere)
        (bounded.conditions tree isThere)

theorem textsMention_paths (bounded : terms.Bounded) (document : Document) :
    TextsMention terms.table.naming (terms.write document).projectionText?.toList
      (terms.paths.flatMap Path.names) [] := by
  by_cases empty : terms.paths = []
  · rw [Document.projectionText?, write, empty]
    exact .nil
  · have text : (terms.write document).projectionText? =
        some (Path.spellAll terms.table.naming terms.paths) := by
      simp only [Document.projectionText?, write, List.isEmpty_eq_false_iff.mpr empty,
        Bool.false_eq_true, if_false]
      rfl
    rw [text]
    exact .paths terms.sound_table terms.knows_paths
      (fun path member => (bounded.paths path member).1)
      (fun path member => (bounded.paths path member).2) empty

/-- The texts of a compiled read mention all names and literals, and no others. -/
theorem textsMention (bounded : terms.Bounded) (document : Document) :
    TextsMention terms.table.naming
      ((Document.text? (terms.keyCondition.map terms.written)).toList ++
        ((Document.text? (terms.filter.map terms.written)).toList ++
          (terms.write document).projectionText?.toList))
      terms.names terms.literals := by
  have key := textsMention_condition bounded fun tree isKey =>
    List.mem_append_left _ (Option.mem_toList.mpr isKey)
  have filter := textsMention_condition bounded fun tree isFilter =>
    List.mem_append_right _ (Option.mem_toList.mpr isFilter)
  have all := key.append (filter.append (textsMention_paths bounded document))
  rw [List.append_nil] at all
  rw [names, literals, conditions, List.flatMap_append, List.flatMap_append, List.append_assoc]
  exact all

end ReadTerms

/-- A request with the texts of a compiled read is resolved. -/
theorem ReadTerms.isResolved
    {terms : ReadTerms}
    {request : Request}
    {document : Document}
    (bounded : terms.Bounded)
    (isNames : request.names = (terms.write document).names)
    (isValues : request.values = (terms.write document).values)
    (isKey : request.keyCondition = Document.text? (terms.write document).keyCondition)
    (isFilter : request.filter = Document.text? (terms.write document).filter)
    (unconditional : request.condition = none)
    (isProjection : request.projection = (terms.write document).projectionText?) :
    request.IsResolved := by
  refine TextsMention.isResolved ?_ isNames isValues
  rw [Request.expressions, isKey, isFilter, unconditional, isProjection]
  exact terms.textsMention bounded document

/-! ## Compiled writes -/

theorem TextsMention.guarded
    {condition : Option Condition}
    (bounded : ∀ tree ∈ condition, tree.isBounded)
    (document : Document) :
    let names := condition.toList.flatMap Condition.names
    let values := condition.toList.flatMap Condition.literals
    TextsMention (PlaceholderTable.meet .start names values).naming
      (Document.text? (document.guarded condition).condition).toList names values := by
  cases condition with
  | none => exact .nil
  | some tree =>
      have knows := PlaceholderTable.Extends.knows
        (.refl (PlaceholderTable.meet .start tree.names tree.literals))
      have sound := PlaceholderTable.Opening.start.sound.meet tree.names tree.literals
      simp only [Document.guarded, Option.toList_some, List.flatMap_singleton]
      exact .condition sound knows (bounded tree rfl)

/-- A request with the text of a compiled write is resolved. -/
theorem Document.isResolved_guarded
    {condition : Option Condition}
    {request : Request}
    {document : Document}
    (bounded : ∀ tree ∈ condition, tree.isBounded)
    (isNames : request.names = (document.guarded condition).names)
    (isValues : request.values = (document.guarded condition).values)
    (isText : request.condition = text? (document.guarded condition).condition)
    (noKey : request.keyCondition = none)
    (noFilter : request.filter = none)
    (whole : request.projection = none) :
    request.IsResolved := by
  refine TextsMention.isResolved ?_ isNames isValues
  rw [Request.expressions, noKey, noFilter, whole, isText, Option.toList_none, List.append_nil]
  exact .guarded bounded document

end ItemTable
