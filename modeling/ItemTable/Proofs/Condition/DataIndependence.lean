import ItemTable.Proofs.Condition.Spelling
import ItemTable.Proofs.Placeholder.Numbering
import Mathlib.Data.Set.Function

/-!
# Compiled text does not depend on the data

The names and the literals of a condition are data.  They are replaced throughout by a
renaming of the names and a replacement of the literals that keep distinct ones distinct.
The compiled text stays what it was, and the placeholders mean what the data was replaced
with: only which of the names and which of the literals are equal matters for the text.

Placeholders are numbered from zero in the order in which the condition first mentions what
they stand for.
-/

namespace ItemTable

/-! ## Replacing data -/

/-- The same path through renamed attributes. -/
def Path.rename (rename : String → String) (path : Path) : Path where
  elements := path.elements.map fun
    | .attribute name => .attribute (rename name)
    | .index position => .index position

section

variable (rename : String → String) (replace : AttributeValue → AttributeValue)

/-- The same operand over other data. -/
def Operand.replaceData : Operand → Operand
  | path place => path (place.rename rename)
  | value literal => value (replace literal)
  | size place => size (place.rename rename)

/-- The same condition over other data. -/
def Condition.replaceData : Condition → Condition
  | compare left operator right =>
      compare (left.replaceData rename replace) operator (right.replaceData rename replace)
  | between value low high =>
      between (value.replaceData rename replace) (low.replaceData rename replace)
        (high.replaceData rename replace)
  | among value candidates =>
      among (value.replaceData rename replace)
        (candidates.map (Operand.replaceData rename replace))
  | joined connective left right =>
      joined connective left.replaceData right.replaceData
  | not inner => not inner.replaceData
  | test predicate arguments =>
      test predicate (arguments.map (Operand.replaceData rename replace))

end

section

variable {rename : String → String} {replace : AttributeValue → AttributeValue}

theorem Path.names_rename (path : Path) : (path.rename rename).names = path.names.map rename := by
  rcases path with ⟨elements⟩
  induction elements with
  | nil => rfl
  | cons element elements ih =>
      cases element with
      | «attribute» name => exact congrArg (rename name :: ·) ih
      | index position => exact ih

theorem Operand.names_replaceData (operand : Operand) :
    (operand.replaceData rename replace).names = operand.names.map rename := by
  cases operand with
  | value literal => rfl
  | path place | size place => exact place.names_rename

theorem Operand.literals_replaceData (operand : Operand) :
    (operand.replaceData rename replace).literals = operand.literals.map replace := by
  cases operand <;> rfl

/-- The operands of the condition over other data, from left to right. -/
theorem Condition.operands_replaceData (condition : Condition) :
    (condition.replaceData rename replace).operands =
      condition.operands.map (Operand.replaceData rename replace) := by
  induction condition with
  | compare | between | among | test => rfl
  | joined connective left right leftIH rightIH =>
      rw [replaceData, operands, operands, leftIH, rightIH, List.map_append]
  | not inner ih => exact ih

theorem Condition.names_replaceData (condition : Condition) :
    (condition.replaceData rename replace).names = condition.names.map rename := by
  rw [names, names, operands_replaceData, List.flatMap_map, List.map_flatMap]
  simp only [Operand.names_replaceData]

theorem Condition.literals_replaceData (condition : Condition) :
    (condition.replaceData rename replace).literals = condition.literals.map replace := by
  rw [literals, literals, operands_replaceData, List.flatMap_map, List.map_flatMap]
  simp only [Operand.literals_replaceData]

end

/-! ## Spelling over other data -/

section

variable
    {rename : String → String}
    {replace : AttributeValue → AttributeValue}
    {first second : Naming}

theorem Path.spellElements_rename
    (elements : List PathElement)
    (names : ∀ name ∈ Path.names ⟨elements⟩, second.name (rename name) = first.name name) :
    Path.spellElements second (Path.rename rename ⟨elements⟩).elements =
      Path.spellElements first elements := by
  induction elements with
  | nil => rfl
  | cons element elements ih =>
      cases element with
      | «attribute» name =>
          have others := ih fun name member => names name (List.mem_cons_of_mem _ member)
          have here := names name List.mem_cons_self
          exact congrArg₂ (fun name rest => "." ++ name ++ rest) here others
      | index position =>
          exact congrArg (fun rest => "[" ++ position.repr ++ "]" ++ rest) (ih names)

theorem Path.spell_rename
    {path : Path}
    (names : ∀ name ∈ path.names, second.name (rename name) = first.name name) :
    (path.rename rename).spell second = path.spell first := by
  rcases path with ⟨elements⟩
  match elements with
  | [] => rfl
  | .index position :: elements =>
      exact spellElements_rename (.index position :: elements) names
  | .attribute name :: elements =>
      have others := spellElements_rename elements fun name member =>
        names name (List.mem_cons_of_mem _ member)
      exact congrArg₂ (· ++ ·) (names name List.mem_cons_self) others

theorem Operand.spell_replaceData
    {operand : Operand}
    (names : ∀ name ∈ operand.names, second.name (rename name) = first.name name)
    (literals : ∀ value ∈ operand.literals, second.value (replace value) = first.value value) :
    (operand.replaceData rename replace).spell second = operand.spell first := by
  cases operand with
  | path place => exact Path.spell_rename names
  | value literal => exact literals literal List.mem_cons_self
  | size place => exact congrArg (fun text => "size(" ++ text ++ ")") (Path.spell_rename names)

theorem Operand.spellAll_replaceData
    (operands : List Operand)
    (same : ∀ operand ∈ operands,
      (operand.replaceData rename replace).spell second = operand.spell first) :
    Operand.spellAll second (operands.map (Operand.replaceData rename replace)) =
      Operand.spellAll first operands := by
  induction operands with
  | nil => rfl
  | cons operand operands ih =>
      have here := same operand List.mem_cons_self
      have others := ih fun operand member => same operand (List.mem_cons_of_mem _ member)
      cases operands with
      | nil => exact here
      | cons => exact congrArg₂ (fun first rest => first ++ ", " ++ rest) here others

/-- A condition is spelled alike if its operands are. -/
theorem Condition.spell_replaceData
    {condition : Condition}
    (same : ∀ operand ∈ condition.operands,
      (operand.replaceData rename replace).spell second = operand.spell first) :
    (condition.replaceData rename replace).spell second = condition.spell first := by
  induction condition with
  | compare left operator right =>
      rw [replaceData, spell, spell, same left (by simp [operands]),
        same right (by simp [operands])]
  | between value low high =>
      rw [replaceData, spell, spell, same value (by simp [operands]), same low (by simp [operands]),
        same high (by simp [operands])]
  | among value candidates =>
      rw [replaceData, spell, spell, same value List.mem_cons_self,
        Operand.spellAll_replaceData candidates fun operand member =>
          same operand (List.mem_cons_of_mem _ member)]
  | joined connective left right leftIH rightIH =>
      rw [replaceData, spell, spell, leftIH fun operand member =>
          same operand (List.mem_append_left _ member),
        rightIH fun operand member => same operand (List.mem_append_right _ member)]
  | not inner ih => rw [replaceData, spell, spell, ih same]
  | test predicate arguments =>
      rw [replaceData, spell, spell, Operand.spellAll_replaceData arguments same]

end

/-! ## Numbers over other data -/

namespace Allotment

section

variable
    {α β : Type}
    [DecidableEq α]
    [DecidableEq β]
    {stem placeholder : String}
    {keys : List α}
    {key : α}

/-- The first key that is met has the number zero, the next one that is met the number one,
and so on. -/
theorem lookup_allotAll_start :
    ((start stem).allotAll keys).assigned.lookup key = some placeholder ↔
      ∃ number, keys.eraseDups[number]? = some key ∧ placeholder = candidate stem number := by
  rw [AssociationList.lookup_eq_some_iff_mem ((Sound.start stem).allotAll keys).keys,
    assigned_allotAll_start, List.mem_iff_getElem?]
  simp only [List.getElem?_mapIdx, Option.map_eq_some_iff, Prod.mk.injEq]
  constructor
  · rintro ⟨number, _, isThere, rfl, rfl⟩
    exact ⟨number, isThere, rfl⟩
  · rintro ⟨number, isThere, rfl⟩
    exact ⟨number, key, isThere, rfl, rfl⟩

theorem find?_meanings_allotAll_start :
    ((start stem).allotAll keys).meanings.find? placeholder = some key ↔
      ∃ number, keys.eraseDups[number]? = some key ∧ placeholder = candidate stem number :=
  ((Sound.start stem).allotAll keys).find?_meanings.trans lookup_allotAll_start

variable {change : α → β}

theorem eraseDups_map (injective : Set.InjOn change {key | key ∈ keys}) :
    (keys.map change).eraseDups = keys.eraseDups.map change := by
  induction keys using List.reverseRecOn with
  | nil => rfl
  | append_singleton keys key ih =>
      have fewer : Set.InjOn change {key | key ∈ keys} :=
        injective.mono fun _ member => List.mem_append_left _ member
      have met_iff : change key ∈ keys.map change ↔ key ∈ keys := by
        refine ⟨fun member => ?_, List.mem_map_of_mem⟩
        rcases List.mem_map.mp member with ⟨other, met, same⟩
        exact injective (List.mem_append_left _ met) (by simp) same ▸ met
      rw [List.map_append, List.map_singleton, eraseDups_concat, eraseDups_concat, ih fewer]
      by_cases met : key ∈ keys
      · rw [if_pos met, if_pos (met_iff.mpr met)]
      · rw [if_neg met, if_neg (mt met_iff.mp met), List.map_append, List.map_singleton]

/-- A replaced key has the placeholder of the key. -/
theorem lookup_allotAll_map
    (injective : Set.InjOn change {key | key ∈ keys})
    (met : key ∈ keys) :
    ((start stem).allotAll (keys.map change)).assigned.lookup (change key) =
      ((start stem).allotAll keys).assigned.lookup key := by
  rcases List.mem_iff_getElem?.mp (List.mem_eraseDups.mpr met) with ⟨number, isThere⟩
  have replaced : (keys.map change).eraseDups[number]? = some (change key) := by
    rw [eraseDups_map injective, List.getElem?_map, isThere, Option.map_some]
  rw [lookup_allotAll_start.mpr ⟨number, replaced, rfl⟩,
    lookup_allotAll_start.mpr ⟨number, isThere, rfl⟩]

/-- The placeholders mean the replaced keys. -/
theorem meanings_allotAll_map (injective : Set.InjOn change {key | key ∈ keys}) :
    ((start stem).allotAll (keys.map change)).meanings =
      ((start stem).allotAll keys).meanings.map change := by
  apply NameMap.ext_find?
  intro placeholder
  apply Option.ext
  intro replaced
  rw [NameMap.find?_map, Option.map_eq_some_iff, find?_meanings_allotAll_start,
    eraseDups_map injective]
  simp only [find?_meanings_allotAll_start, List.getElem?_map, Option.map_eq_some_iff]
  constructor
  · rintro ⟨number, ⟨key, isThere, same⟩, isNumber⟩
    exact ⟨key, ⟨number, isThere, isNumber⟩, same⟩
  · rintro ⟨key, ⟨number, isThere, isNumber⟩, same⟩
    exact ⟨number, ⟨key, isThere, same⟩, isNumber⟩

end

end Allotment

/-! ## Compiled conditions -/

namespace Condition

variable (condition : Condition)

theorem names_compile :
    condition.compile.names = ((Allotment.start "#n").allotAll condition.names).meanings :=
  congrArg (fun table => table.names.meanings)
    (PlaceholderTable.spells_render .start condition).table

theorem values_compile :
    condition.compile.values = ((Allotment.start ":v").allotAll condition.literals).meanings :=
  congrArg (fun table => table.values.meanings)
    (PlaceholderTable.spells_render .start condition).table

/-- The text is the condition spelled with the placeholders of its own names and literals. -/
theorem expression_compile :
    condition.compile.expression =
      condition.spell (PlaceholderTable.start.meet condition.names condition.literals).naming := by
  have spelled := PlaceholderTable.spells_render .start condition
  rw [← spelled.table]
  exact spelled.text _ (.refl _)

end Condition

/-- The text of a compiled condition stays the same when distinct names and literals are
replaced by distinct ones throughout, and the placeholders mean what the old ones meant with
the replacement made.  The placeholders are those with the numbers from zero, and each means
the name or the literal that the condition is the next to mention for the first time. -/
theorem compile_independent_of_data (condition : Condition) :
    (∀ (rename : String → String) (replace : AttributeValue → AttributeValue),
      Set.InjOn rename {name | name ∈ condition.names} →
      Set.InjOn replace {value | value ∈ condition.literals} →
        let replaced := (condition.replaceData rename replace).compile
        replaced.expression = condition.compile.expression ∧
          replaced.names = condition.compile.names.map rename ∧
          replaced.values = condition.compile.values.map replace) ∧
      (∀ placeholder name,
        condition.compile.names.find? placeholder = some name ↔
          ∃ number : Nat, condition.names.eraseDups[number]? = some name ∧
            placeholder = "#n" ++ number.repr) ∧
      ∀ placeholder value,
        condition.compile.values.find? placeholder = some value ↔
          ∃ number : Nat, condition.literals.eraseDups[number]? = some value ∧
            placeholder = ":v" ++ number.repr := by
  refine ⟨fun rename replace renames replaces => ⟨?_, ?_, ?_⟩, fun placeholder name => ?_,
    fun placeholder value => ?_⟩
  · rw [Condition.expression_compile, Condition.expression_compile,
      Condition.names_replaceData, Condition.literals_replaceData]
    refine Condition.spell_replaceData fun operand member =>
      Operand.spell_replaceData (fun name mentioned => ?_) fun value mentioned => ?_
    · have met : name ∈ condition.names := List.mem_flatMap.mpr ⟨operand, member, mentioned⟩
      exact congrArg (Option.getD · "") (Allotment.lookup_allotAll_map renames met)
    · have met : value ∈ condition.literals := List.mem_flatMap.mpr ⟨operand, member, mentioned⟩
      exact congrArg (Option.getD · "") (Allotment.lookup_allotAll_map replaces met)
  · rw [Condition.names_compile, Condition.names_compile, Condition.names_replaceData,
      Allotment.meanings_allotAll_map renames]
  · rw [Condition.values_compile, Condition.values_compile, Condition.literals_replaceData,
      Allotment.meanings_allotAll_map replaces]
  · rw [Condition.names_compile]
    exact Allotment.find?_meanings_allotAll_start
  · rw [Condition.values_compile]
    exact Allotment.find?_meanings_allotAll_start

/-- Names that are turned into texts of expressions, and literals that are wrapped in lists;
a name and a literal are mentioned twice. -/
theorem compile_independent_of_data_wrapped :
    let condition : Condition :=
      .and
        (.compare (.path ⟨[.attribute "Views", .index 0, .attribute "Tags"]⟩) .less
          (.value (.number "1")))
        (.test .contains [.path ⟨[.attribute "Tags"]⟩, .value (.number "1")])
    let rename (name : String) := "#n0 = :v0 OR " ++ name
    let replace (value : AttributeValue) := AttributeValue.list [value, .string "]"]
    let replaced := (condition.replaceData rename replace).compile
    Set.InjOn rename {name | name ∈ condition.names} ∧
      Set.InjOn replace {value | value ∈ condition.literals} ∧
      replaced.expression = "((#n0[0].#n1 < :v0) AND contains(#n1, :v0))" ∧
      replaced.names.find? "#n1" = some "#n0 = :v0 OR Tags" ∧
      replaced.values.find? ":v1" = none := by
  intro condition rename replace replaced
  have renames : Set.InjOn rename {name | name ∈ condition.names} :=
    fun _ _ _ _ same => String.append_right_inj _ |>.mp same
  have replaces : Set.InjOn replace {value | value ∈ condition.literals} :=
    fun _ _ _ _ same => (List.cons.inj (AttributeValue.list.inj same)).1
  rcases (compile_independent_of_data condition).1 rename replace renames replaces with
    ⟨text, names, values⟩
  refine ⟨renames, replaces, ?_, ?_, ?_⟩
  · rw [text]
    decide +kernel
  · rw [names]
    decide +kernel
  · rw [values]
    decide +kernel

end ItemTable
