import ItemTable.Proofs.Expression.Scopes
import ItemTable.Proofs.Memory.Alike

/-!
# Writes are made whole or not at all

A request to store or to delete an item is admitted if its table exists, it says of
which item it is, and its condition can be read with no placeholder left over but for
the empty one.  Of an admitted request the condition decides, evaluated on the item that
is there.  Whatever stands in the way of a request, no later answer of the memory shows
that it was made; and a request that is granted changes what one key of one table finds.
-/

namespace ItemTable

/-- A request to store or to delete an item. -/
inductive WriteRequest where
  | put (request : PutRequest)
  | delete (request : DeleteRequest)

namespace WriteRequest

def tableName : WriteRequest → String
  | put request => request.tableName
  | delete request => request.tableName

/-- The item that is stored, or the key of the item that is deleted. -/
def subject : WriteRequest → Item
  | put request => request.item
  | delete request => request.key

/-- What the key of the request finds when the request was granted. -/
def left : WriteRequest → Option Item
  | put request => some request.item
  | delete _ => none

def condition : WriteRequest → Option String
  | put request => request.condition
  | delete request => request.condition

def names : WriteRequest → NameMap String
  | put request => request.names
  | delete request => request.names

def values : WriteRequest → NameMap AttributeValue
  | put request => request.values
  | delete request => request.values

/-- The write of a table that a request asks for. -/
def asWrite
    (key : PrimaryKey)
    (condition : Option Condition) :
    WriteRequest → Storage.Write
  | put request => .put request.item (Memory.check condition)
  | delete _ => .delete key (Memory.check condition)

/-- A request is about the item with a key: its subject has the key, and a request to
delete names no other attributes. -/
structure IsAbout (request : WriteRequest) (schema : KeySchema) (key : PrimaryKey) : Prop where
  hasKey : schema.HasKey request.subject key
  exact : ∀ deletion, request = delete deletion →
    deletion.key.size = schema.attributes.length

end WriteRequest

namespace Memory

/-- Answer a request to store or to delete an item. -/
def write : WriteRequest → Memory → Except ServiceError WriteReply × Memory
  | .put request => put request
  | .delete request => delete request

/-- The memory after some requests, whether or not they were granted. -/
def writeAll (memory : Memory) : List WriteRequest → Memory
  | [] => memory
  | request :: requests => writeAll (memory.write request).2 requests

/-! ## Conditions -/

/-- An optional text is the text of an optional condition, and it mentions all
placeholders that are explained, apart from the empty one. -/
inductive ReadsAs
    (names : NameMap String)
    (values : NameMap AttributeValue) :
    Option String → Option Condition → Prop
  | absent
      (noName : ∀ placeholder ∈ names.names, placeholder = "")
      (noValue : ∀ placeholder ∈ values.names, placeholder = "") :
      ReadsAs names values none none
  | present
      {text : String}
      {tokens : List Token}
      {condition : Condition}
      (scanned : References.scanExpression text = .ok tokens)
      (parsed : References.condition ⟨names, values⟩ tokens = .ok condition)
      (allNames : ∀ placeholder ∈ names.names,
        placeholder = "" ∨ placeholder ∈ Scope.namesIn tokens)
      (allValues : ∀ placeholder ∈ values.names,
        placeholder = "" ∨ placeholder ∈ Scope.valuesIn tokens) :
      ReadsAs names values (some text) (some condition)

variable
    {names : NameMap String}
    {values : NameMap AttributeValue}
    {text : Option String}
    {condition : Option Condition}
    {stored : Option Item}
    {error : ServiceError}

theorem orInvalid_eq_mapError
    {α : Type}
    (part : String)
    (result : Except ExpressionError α) :
    orInvalid part result = result.mapError (invalid part) := by
  cases result <;> rfl

theorem isCheckFailed_of_orInvalid
    {α : Type}
    {part : String}
    {result : Except ExpressionError α}
    (failed : orInvalid part result = .error error) :
    error.isCheckFailed = false := by
  rw [orInvalid_eq_mapError] at failed
  rcases mapError_eq_error.mp failed with ⟨cause, -, rfl⟩
  rfl

theorem orKeyError_eq_mapError
    {α : Type}
    (result : Except KeyError α) :
    orKeyError result = result.mapError fun error => .validation error.message := by
  cases result <;> rfl

theorem isCheckFailed_of_orKeyError
    {α : Type}
    {result : Except KeyError α}
    (failed : orKeyError result = .error error) :
    error.isCheckFailed = false := by
  rw [orKeyError_eq_mapError] at failed
  rcases mapError_eq_error.mp failed with ⟨cause, -, rfl⟩
  rfl

theorem readCondition_some_eq_ok_iff
    {scope next : Scope}
    {part text : String} :
    readCondition scope part (some text) = .ok (condition, next) ↔
      ∃ tokens read,
        References.scanExpression text = .ok tokens ∧
          References.condition scope.references tokens = .ok read ∧
          condition = some read ∧ next = scope.mention tokens := by
  rw [readCondition, Scope.condition, Scope.parse]
  cases References.scanExpression text with
  | error failure =>
      constructor
      · rintro ⟨⟩
      · rintro ⟨_, _, ⟨⟩, -⟩
  | ok tokens =>
      dsimp only
      cases parsed : References.condition scope.references tokens with
      | error failure =>
          constructor
          · rintro ⟨⟩
          · rintro ⟨_, read, ⟨⟩, again, -⟩
            rw [parsed] at again
            cases again
      | ok read =>
          constructor
          · rintro ⟨⟩
            exact ⟨tokens, read, rfl, parsed, rfl, rfl⟩
          · rintro ⟨_, _, ⟨⟩, again, rfl, rfl⟩
            rw [parsed] at again
            cases again
            rfl

theorem writeCondition_eq_ok_iff :
    writeCondition names values text = .ok condition ↔ ReadsAs names values text condition := by
  have steps :
      writeCondition names values text = .ok condition ↔
        ∃ next,
          readCondition (.start names values) "ConditionExpression" text =
              .ok (condition, next) ∧
            next.finish = .ok () := by
    rw [writeCondition, bind_eq_ok]
    constructor
    · rintro ⟨⟨found, next⟩, read, others⟩
      rcases bind_eq_ok.mp others with ⟨_, finished, ⟨⟩⟩
      rw [orInvalid_eq_mapError] at finished
      exact ⟨next, read, mapError_eq_ok.mp finished⟩
    · rintro ⟨next, read, finished⟩
      refine ⟨_, read, ?_⟩
      dsimp only
      rw [finished]
      rfl
  rw [steps]
  cases text with
  | none =>
      constructor
      · rintro ⟨_, ⟨⟩, finished⟩
        rcases Scope.finish_eq_ok_iff.mp finished with ⟨noName, noValue⟩
        apply ReadsAs.absent
        · exact fun name given => (noName name given).resolve_right List.not_mem_nil
        · exact fun name given => (noValue name given).resolve_right List.not_mem_nil
      · rintro ⟨noName, noValue⟩
        refine ⟨_, rfl, ?_⟩
        rw [Scope.finish_eq_ok_iff]
        constructor
        · exact fun name given => .inl (noName name given)
        · exact fun name given => .inl (noValue name given)
  | some text =>
      constructor
      · rintro ⟨next, read, finished⟩
        rcases readCondition_some_eq_ok_iff.mp read with ⟨tokens, found, scanned, parsed, rfl, rfl⟩
        rcases Scope.finish_eq_ok_iff.mp finished with ⟨allNames, allValues⟩
        exact .present scanned parsed allNames allValues
      · rintro (_ | ⟨scanned, parsed, allNames, allValues⟩)
        refine ⟨_, readCondition_some_eq_ok_iff.mpr ⟨_, _, scanned, parsed, rfl, rfl⟩, ?_⟩
        exact Scope.finish_eq_ok_iff.mpr ⟨allNames, allValues⟩

theorem isCheckFailed_of_writeCondition
    (failed : writeCondition names values text = .error error) :
    error.isCheckFailed = false := by
  rcases bind_eq_error.mp failed with unread | ⟨_, -, others⟩
  · cases text with
    | none => cases unread
    | some text =>
        rcases bind_eq_error.mp unread with invalid | ⟨_, -, ⟨⟩⟩
        exact isCheckFailed_of_orInvalid invalid
  · rcases bind_eq_error.mp others with unfinished | ⟨_, -, ⟨⟩⟩
    exact isCheckFailed_of_orInvalid unfinished

theorem check_eq_ok_iff :
    check condition stored = .ok () ↔
      ∀ asked ∈ condition, asked.holds (stored.getD ∅) = .ok true := by
  cases condition with
  | none => exact ⟨fun _ => nofun, fun _ => rfl⟩
  | some asked =>
      have only : (∀ found ∈ some asked, found.holds (stored.getD ∅) = .ok true) ↔
          asked.holds (stored.getD ∅) = .ok true := by
        simp
      rw [only, check]
      cases asked.holds (stored.getD ∅) with
      | error error => exact ⟨nofun, nofun⟩
      | ok value =>
          cases value with
          | true => exact ⟨fun _ => rfl, fun _ => rfl⟩
          | false => exact ⟨nofun, nofun⟩

/-- The check of a condition fails as unmet exactly if the condition is false. -/
theorem isCheckFailed_iff_of_check
    (failed : check condition stored = .error error) :
    error.isCheckFailed ↔ ∃ asked ∈ condition, asked.holds (stored.getD ∅) = .ok false := by
  cases condition with
  | none => cases failed
  | some asked =>
      rw [check] at failed
      cases held : asked.holds (stored.getD ∅) with
      | error cause =>
          rw [held] at failed
          cases failed
          constructor
          · nofun
          · rintro ⟨_, ⟨⟩, isFalse⟩
            rw [held] at isFalse
            cases isFalse
      | ok value =>
          rw [held] at failed
          cases value with
          | true => cases failed
          | false =>
              cases failed
              exact ⟨fun _ => ⟨asked, rfl, held⟩, fun _ => rfl⟩

/-! ## What requests lead to -/

/-- A memory admits a request: there is its table, it is about the item with a key, and
its condition can be read. -/
structure Admits
    (memory : Memory)
    (request : WriteRequest)
    (storage : Storage)
    (key : PrimaryKey)
    (condition : Option Condition) : Prop where
  found : memory.tables.find? request.tableName = some storage
  about : request.IsAbout storage.schema key
  reads : ReadsAs request.names request.values request.condition condition

/-- A request that is not admitted fails and changes nothing; of one that is admitted,
the table checks the condition. -/
inductive Outcome (memory : Memory) (request : WriteRequest) :
    Except ServiceError WriteReply × Memory → Prop
  | rejected
      {error : ServiceError}
      (inadmissible : ∀ storage key condition, ¬memory.Admits request storage key condition)
      (otherwise : error.isCheckFailed = false) :
      Outcome memory request (.error error, memory)
  | refused
      {storage : Storage}
      {key : PrimaryKey}
      {condition : Option Condition}
      {error : ServiceError}
      (admits : memory.Admits request storage key condition)
      (checked : check condition (storage.item? key) = .error error) :
      Outcome memory request
        (.error error,
          memory.setTable request.tableName (storage.after (request.asWrite key condition)))
  | granted
      {storage : Storage}
      {key : PrimaryKey}
      {condition : Option Condition}
      {reply : WriteReply}
      (admits : memory.Admits request storage key condition)
      (checked : check condition (storage.item? key) = .ok ()) :
      Outcome memory request
        (.ok reply,
          memory.setTable request.tableName (storage.after (request.asWrite key condition)))

variable {memory : Memory} {storage : Storage} {key : PrimaryKey}

theorem tables_eq_none_of_table
    {name : String}
    (failed : memory.table name = .error error) :
    memory.tables.find? name = none ∧ error.isCheckFailed = false := by
  rw [table] at failed
  cases found : memory.tables.find? name with
  | none =>
      rw [found] at failed
      cases failed
      exact ⟨rfl, rfl⟩
  | some storage =>
      rw [found] at failed
      cases failed

theorem put_outcome (memory : Memory) (request : PutRequest) :
    memory.Outcome (.put request) (put request memory) := by
  rw [put]
  cases isTable : memory.table request.tableName with
  | error error =>
      rcases tables_eq_none_of_table isTable with ⟨absent, otherwise⟩
      refine .rejected ?_ otherwise
      intro storage key condition admits
      cases absent.symm.trans admits.found
  | ok storage =>
      rw [ok_bind]
      cases read : writeCondition request.names request.values request.condition with
      | error error =>
          refine .rejected ?_ (isCheckFailed_of_writeCondition read)
          intro storage key condition admits
          cases read.symm.trans (writeCondition_eq_ok_iff.mpr admits.reads)
      | ok condition =>
          have found := table_eq_ok_iff.mp isTable
          rw [ok_bind]
          dsimp only [pure, Except.pure]
          have admits {key : PrimaryKey}
              (keyed : storage.schema.primaryKey request.item = .ok key) :
              memory.Admits (.put request) storage key condition := by
            refine ⟨found, ⟨KeySchema.primaryKey_eq_ok_iff.mp keyed, ?_⟩,
              writeCondition_eq_ok_iff.mp read⟩
            rintro _ ⟨⟩
          rcases storage.putIf_cases request.item (check condition) with
            ⟨error, keyed, refused⟩ | ⟨key, error, keyed, checked, refused, -⟩ |
              ⟨key, keyed, checked, made, -⟩
          -- An item without a key is found out by the table, which is then put back unchanged.
          · rw [refused]
            dsimp only
            rw [setTable, NameMap.insert_of_find? found]
            refine .rejected ?_ rfl
            intro other key condition admits
            cases found.symm.trans admits.found
            cases keyed.symm.trans (KeySchema.primaryKey_eq_ok_iff.mpr admits.about.hasKey)
          · rw [refused]
            exact .refused (admits keyed) checked
          · rw [made]
            exact .granted (admits keyed) checked

theorem exactKey_eq_ok_iff
    {request : DeleteRequest}
    {schema : KeySchema} :
    orKeyError (schema.exactKey request.key) = .ok key ↔
      (WriteRequest.delete request).IsAbout schema key := by
  rw [orKeyError_eq_mapError, mapError_eq_ok, KeySchema.exactKey]
  constructor
  · intro keyed
    split at keyed
    · rename_i exact
      refine ⟨KeySchema.primaryKey_eq_ok_iff.mp keyed, fun _ same => ?_⟩
      cases same
      exact exact
    · cases keyed
  · rintro ⟨hasKey, exact⟩
    rw [if_pos (exact request rfl)]
    exact KeySchema.primaryKey_eq_ok_iff.mpr hasKey

theorem delete_outcome (memory : Memory) (request : DeleteRequest) :
    memory.Outcome (.delete request) (delete request memory) := by
  rw [delete]
  cases isTable : memory.table request.tableName with
  | error error =>
      rcases tables_eq_none_of_table isTable with ⟨absent, otherwise⟩
      refine .rejected ?_ otherwise
      intro storage key condition admits
      cases absent.symm.trans admits.found
  | ok storage =>
      have found := table_eq_ok_iff.mp isTable
      rw [ok_bind]
      cases keyed : orKeyError (storage.schema.exactKey request.key) with
      | error error =>
          refine .rejected ?_ (isCheckFailed_of_orKeyError keyed)
          intro other key condition admits
          cases found.symm.trans admits.found
          cases keyed.symm.trans (exactKey_eq_ok_iff.mpr admits.about)
      | ok key =>
          rw [ok_bind]
          cases read : writeCondition request.names request.values request.condition with
          | error error =>
              refine .rejected ?_ (isCheckFailed_of_writeCondition read)
              intro storage key condition admits
              cases read.symm.trans (writeCondition_eq_ok_iff.mpr admits.reads)
          | ok condition =>
              have admits : memory.Admits (.delete request) storage key condition :=
                ⟨found, exactKey_eq_ok_iff.mp keyed, writeCondition_eq_ok_iff.mp read⟩
              rw [ok_bind]
              dsimp only [pure, Except.pure]
              have same : storage.after ((WriteRequest.delete request).asWrite key condition) =
                  (storage.deleteIf key (check condition)).2 :=
                rfl
              rcases storage.deleteIf_cases key (check condition) with
                ⟨error, checked, refused⟩ | ⟨checked, made, -⟩
              · rw [refused] at same ⊢
                rw [← same]
                exact .refused admits checked
              · rw [made]
                exact .granted admits checked

theorem write_outcome (memory : Memory) (request : WriteRequest) :
    memory.Outcome request (memory.write request) := by
  cases request with
  | put request => exact put_outcome memory request
  | delete request => exact delete_outcome memory request

variable {request : WriteRequest}

theorem Admits.unique
    {other : Storage}
    {otherKey : PrimaryKey}
    {otherCondition : Option Condition}
    (admits : memory.Admits request storage key condition)
    (again : memory.Admits request other otherKey otherCondition) :
    storage = other ∧ key = otherKey ∧ condition = otherCondition := by
  cases admits.found.symm.trans again.found
  have keys :=
    (KeySchema.primaryKey_eq_ok_iff.mpr admits.about.hasKey).symm.trans
      (KeySchema.primaryKey_eq_ok_iff.mpr again.about.hasKey)
  have conditions :=
    (writeCondition_eq_ok_iff.mpr admits.reads).symm.trans
      (writeCondition_eq_ok_iff.mpr again.reads)
  cases keys
  cases conditions
  exact ⟨rfl, rfl, rfl⟩

/-! ## Refused requests -/

theorem Admits.isError_of_check
    (admits : memory.Admits request storage key condition)
    (checked : check condition (storage.item? key) = .error error) :
    (storage.write (request.asWrite key condition)).1.isError := by
  rw [(storage.write_eq_outcome _).1]
  cases request with
  | put request =>
      have keyed := KeySchema.primaryKey_eq_ok_iff.mpr admits.about.hasKey
      change storage.schema.primaryKey request.item = _ at keyed
      rw [WriteRequest.asWrite, Storage.Write.outcome, keyed]
      dsimp only
      rw [checked]
      rfl
  | delete request =>
      rw [WriteRequest.asWrite, Storage.Write.outcome, checked]
      rfl

/-- A memory that did not grant a request is alike the memory before. -/
theorem Reachable.write_alike
    (reachable : memory.Reachable)
    (failed : (memory.write request).1 = .error error) :
    (memory.write request).2.Alike memory := by
  have outcome := memory.write_outcome request
  generalize memory.write request = answer at failed outcome ⊢
  cases outcome with
  | rejected inadmissible otherwise => exact reachable.alike
  | granted admits checked => cases failed
  | refused admits checked =>
      -- The put may have left an empty partition, so the table is not the same one.
      have sound := (reachable.ofReachable _ _ admits.found).sound
      exact reachable.setTable_alike admits.found
        (sound.after_alike (admits.isError_of_check checked))

/-- Memories that give the same answers, to reads, to writes and to the question how many
items there are. -/
structure AnswersAs (left right : Memory) : Prop where
  get : ∀ request, Memory.get request left = Memory.get request right
  query : ∀ request, Memory.query request left = Memory.query request right
  scan : ∀ request, Memory.scan request left = Memory.scan request right
  write : ∀ request, (left.write request).1 = (right.write request).1
  itemCount : ∀ name, left.itemCount name = right.itemCount name

theorem Alike.write_eq
    {left right : Memory}
    (alike : left.Alike right)
    (request : WriteRequest) :
    (left.write request).1 = (right.write request).1 ∧
      (left.write request).2.Alike (right.write request).2 := by
  cases request with
  | put request => exact alike.put_eq request
  | delete request => exact alike.delete_eq request

theorem Alike.writeAll
    {left right : Memory}
    (alike : left.Alike right)
    (requests : List WriteRequest) :
    (left.writeAll requests).Alike (right.writeAll requests) := by
  induction requests generalizing left right with
  | nil => exact alike
  | cons request requests ih => exact ih (alike.write_eq request).2

theorem Alike.answersAs
    {left right : Memory}
    (alike : left.Alike right) :
    left.AnswersAs right where
  get := alike.get_eq
  query := alike.query_eq
  scan := alike.scan_eq
  write request := (alike.write_eq request).1
  itemCount := alike.itemCount_eq

/-! ## Granted requests -/

/-- Two memories differ in what one key of one table finds, and in nothing else. -/
structure Changes
    (memory next : Memory)
    (name : String)
    (key : PrimaryKey)
    (left : Option Item) : Prop where
  elsewhere : ∀ other, other ≠ name → next.tables.find? other = memory.tables.find? other
  here : ∃ before after,
    memory.tables.find? name = some before ∧ next.tables.find? name = some after ∧
      after.schema = before.schema ∧ after.indexes = before.indexes ∧
        ∀ other, after.item? other = if key.isSame other then left else before.item? other

theorem Admits.changes
    (admits : memory.Admits request storage key condition)
    (checked : check condition (storage.item? key) = .ok ()) :
    memory.Changes
      (memory.setTable request.tableName (storage.after (request.asWrite key condition)))
      request.tableName key request.left where
  elsewhere other different := by
    rw [setTable, NameMap.find?_insert, if_neg different]
  here := by
    refine ⟨storage, storage.after (request.asWrite key condition), admits.found, ?_,
      (storage.after_schema _).1, (storage.after_schema _).2, ?_⟩
    · rw [setTable, NameMap.find?_insert, if_pos rfl]
    · intro other
      rw [(storage.write_eq_outcome _).2]
      cases request with
      | put request =>
          have keyed := KeySchema.primaryKey_eq_ok_iff.mpr admits.about.hasKey
          change storage.schema.primaryKey request.item = _ at keyed
          rw [WriteRequest.asWrite, Storage.Write.outcome, keyed]
          dsimp only
          rw [checked]
          rfl
      | delete request =>
          rw [WriteRequest.asWrite, Storage.Write.outcome, checked]
          rfl

/-! ## All or nothing -/

section

variable {answer : Except ServiceError WriteReply × Memory}

theorem Outcome.granted_iff (outcome : Outcome memory request answer) :
    (∃ reply, answer.1 = .ok reply) ↔
      ∃ storage key condition,
        memory.Admits request storage key condition ∧
          ∀ asked ∈ condition, asked.holds ((storage.item? key).getD ∅) = .ok true := by
  cases outcome with
  | rejected inadmissible otherwise =>
      constructor
      · nofun
      · rintro ⟨storage, key, condition, admits, -⟩
        exact absurd admits (inadmissible storage key condition)
  | refused admits checked =>
      constructor
      · nofun
      · rintro ⟨_, _, _, again, holds⟩
        rcases admits.unique again with ⟨rfl, rfl, rfl⟩
        exact nomatch checked.symm.trans (check_eq_ok_iff.mpr holds)
  | granted admits checked =>
      constructor
      · intro _
        exact ⟨_, _, _, admits, check_eq_ok_iff.mp checked⟩
      · intro _
        exact ⟨_, rfl⟩

theorem Outcome.checkFailed_iff (outcome : Outcome memory request answer) :
    (∃ error, answer.1 = .error error ∧ error.isCheckFailed) ↔
      ∃ storage key condition,
        memory.Admits request storage key condition ∧
          ∃ asked ∈ condition, asked.holds ((storage.item? key).getD ∅) = .ok false := by
  cases outcome with
  | rejected inadmissible otherwise =>
      constructor
      · rintro ⟨_, ⟨⟩, unmet⟩
        rw [otherwise] at unmet
        cases unmet
      · rintro ⟨storage, key, condition, admits, -⟩
        exact absurd admits (inadmissible storage key condition)
  | refused admits checked =>
      constructor
      · rintro ⟨_, ⟨⟩, unmet⟩
        exact ⟨_, _, _, admits, (isCheckFailed_iff_of_check checked).mp unmet⟩
      · rintro ⟨_, _, _, again, isFalse⟩
        rcases admits.unique again with ⟨rfl, rfl, rfl⟩
        exact ⟨_, rfl, (isCheckFailed_iff_of_check checked).mpr isFalse⟩
  | granted admits checked =>
      constructor
      · rintro ⟨_, ⟨⟩, -⟩
      · rintro ⟨_, _, _, again, asked, isAsked, isFalse⟩
        rcases admits.unique again with ⟨rfl, rfl, rfl⟩
        have isTrue := check_eq_ok_iff.mp checked asked isAsked
        rw [isFalse] at isTrue
        cases isTrue

theorem Outcome.changes
    {reply : WriteReply}
    (outcome : Outcome memory request answer)
    (succeeded : answer.1 = .ok reply) :
    ∃ storage key condition,
      memory.Admits request storage key condition ∧
        memory.Changes answer.2 request.tableName key request.left := by
  cases outcome with
  | rejected inadmissible otherwise => cases succeeded
  | refused admits checked => cases succeeded
  | granted admits checked => exact ⟨_, _, _, admits, admits.changes checked⟩

end

/-- A request to write is granted exactly if it is admitted and its condition holds of the
item that is there, and fails as unmet exactly if it is admitted and its condition is
false.  If it fails, for whatever reason, the memory answers as if it had not been made,
now and after any later writes; if it is granted, its key finds what it asked for and
nothing else is changed. -/
theorem write_all_or_nothing
    {memory : Memory}
    (reachable : memory.Reachable)
    (request : WriteRequest) :
    let result := (memory.write request).1
    let next := (memory.write request).2
    (∀ error, result = .error error →
      ∀ later, (next.writeAll later).AnswersAs (memory.writeAll later)) ∧
    ((∃ reply, result = .ok reply) ↔
      ∃ storage key condition,
        memory.Admits request storage key condition ∧
          ∀ asked ∈ condition, asked.holds ((storage.item? key).getD ∅) = .ok true) ∧
    ((∃ error, result = .error error ∧ error.isCheckFailed) ↔
      ∃ storage key condition,
        memory.Admits request storage key condition ∧
          ∃ asked ∈ condition, asked.holds ((storage.item? key).getD ∅) = .ok false) ∧
    ∀ reply, result = .ok reply →
      ∃ storage key condition,
        memory.Admits request storage key condition ∧
          memory.Changes next request.tableName key request.left := by
  intro result next
  refine ⟨?_, ?_, ?_, ?_⟩
  · intro error failed later
    exact ((reachable.write_alike failed).writeAll later).answersAs
  · exact (memory.write_outcome request).granted_iff
  · exact (memory.write_outcome request).checkFailed_iff
  · intro reply succeeded
    exact (memory.write_outcome request).changes succeeded

/-- To store an item only over one that is there fails in a new table. -/
theorem write_all_or_nothing_fresh :
    let memory := (start.createTable "notes" ⟨⟨"id", .string⟩, none⟩).2
    let request : WriteRequest :=
      .put ⟨"notes", .ofList [("id", .string "a")], some "attribute_exists(id)", ∅, ∅, none⟩
    memory.Reachable ∧
      (memory.write request).1 = .error (.checkFailed "The conditional request failed") ∧
      ∀ later, ((memory.write request).2.writeAll later).AnswersAs (memory.writeAll later) := by
  intro memory request
  have reachable : memory.Reachable := .createTable .start _ _
  have refused :
      (memory.write request).1 = .error (.checkFailed "The conditional request failed") := by
    decide +kernel
  exact ⟨reachable, refused, (write_all_or_nothing reachable request).1 _ refused⟩

/-- A request without a condition explains the empty placeholder, which nothing mentions,
and is granted. -/
theorem write_granted_with_empty_placeholder :
    let memory := (start.createTable "notes" ⟨⟨"id", .string⟩, none⟩).2
    let request : WriteRequest :=
      .put ⟨"notes", .ofList [("id", .string "a")], none, .ofList [("", "author")], ∅, none⟩
    memory.Reachable ∧ request.condition = none ∧ request.names.names = [""] ∧
      (memory.write request).1 = .ok ⟨none⟩ ∧
      (memory.write request).2.itemCount "notes" = .ok 1 := by
  intro memory request
  have reachable : memory.Reachable := .createTable .start _ _
  exact ⟨reachable, rfl, by decide +kernel, by decide +kernel, by decide +kernel⟩

end Memory

end ItemTable
