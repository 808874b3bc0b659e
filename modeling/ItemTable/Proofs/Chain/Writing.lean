import ItemTable.Proofs.Chain.FullRead
import ItemTable.Proofs.Chain.Resolved
import ItemTable.Proofs.KeyMap
import ItemTable.Proofs.Memory.Finding

/-!
# Chains that write one item

A chain stores an item, to which it adds its key, or deletes the item with its key.  The
request that it sends asks a memory for exactly that, under the condition of the chain,
so the condition is evaluated on the item that is there; and what was stored is found
again by its key attributes.
-/

namespace ItemTable

/-! ## What a chain writes -/

/-- What a chain does with one item. -/
inductive ItemWrite where
  /-- Store the item with the key of the chain added. -/
  | put (item : Item)
  /-- Delete the item with the key of the chain. -/
  | delete

namespace ItemWrite

/-- Run a chain that writes. -/
def run
    {σ : Type}
    (table : Table σ)
    (chain : ChainState)
    (state : σ) :
    ItemWrite → Except ChainError Unit × σ
  | put item => table.put chain item state
  | delete => table.delete chain state

/-- The item that is stored, or the key of the item that is deleted. -/
def subject (chain : ChainState) : ItemWrite → Item
  | put item => item.extend chain.key
  | delete => chain.key

/-- What is there afterwards. -/
def left (chain : ChainState) : ItemWrite → Option Item
  | put item => some (item.extend chain.key)
  | delete => none

/-- A write is about the item with a key: what is stored has the key, and what is deleted
is named by the key and nothing else. -/
def IsAbout
    (chain : ChainState)
    (schema : KeySchema)
    (key : PrimaryKey) :
    ItemWrite → Prop
  | put item => schema.HasKey (item.extend chain.key) key
  | delete => schema.IsKeyMap chain.key key

theorem IsAbout.hasKey
    {chain : ChainState}
    {schema : KeySchema}
    {key : PrimaryKey}
    {write : ItemWrite}
    (about : write.IsAbout chain schema key) :
    schema.HasKey (write.subject chain) key := by
  cases write with
  | put item => exact about
  | delete => exact KeySchema.IsKeyMap.hasKey about

/-- A write addresses a key of a table: there is the table, and the write is about the
item with the key. -/
structure Addresses
    (write : ItemWrite)
    (chain : ChainState)
    (memory : Memory)
    (name : String)
    (storage : Storage)
    (key : PrimaryKey) : Prop where
  found : memory.tables.find? name = some storage
  about : write.IsAbout chain storage.schema key

/-- A request asks a memory for what a chain writes. -/
structure IsAskedBy
    (write : ItemWrite)
    (chain : ChainState)
    (name : String)
    (request : WriteRequest) : Prop where
  tableName : request.tableName = name
  subject : request.subject = write.subject chain
  left : request.left = write.left chain
  deletes : (∃ deletion, request = .delete deletion) ↔ write = .delete
  condition :
    Memory.writeCondition request.names request.values request.condition =
      .ok chain.condition

variable
    {σ : Type}
    {table : Table Memory}
    {chain : ChainState}
    {write : ItemWrite}
    {memory : Memory}

/-- What is left of the answer to a request that was sent. -/
def answer (reply : Except ServiceError WriteReply × Memory) : Except ChainError Unit × Memory :=
  ((reply.1.mapError .ofService).map fun _ => (), reply.2)

section

variable
    {document : Document}
    {condition : Option Condition}
    (asks : document.Asks none none condition)
    (whole : document.projection = none)

include asks whole

theorem putItem_eq (memory : Memory) :
    let answered := answer (memory.write (.put (document.guarded condition).toPutRequest))
    Memory.service.putItem document memory =
      (answered.1, document.guarded condition, answered.2) := by
  intro answered
  rw [TableService.putItem, Document.putRequest, Document.compileTo, asks.compile_guarded whole]
  dsimp only [TableService.send, Memory.service, Memory.write, answer, answered]
  rcases Memory.put (document.guarded condition).toPutRequest memory with ⟨_ | reply, next⟩ <;> rfl

theorem deleteItem_eq (memory : Memory) :
    let answered := answer (memory.write (.delete (document.guarded condition).toDeleteRequest))
    Memory.service.deleteItem document memory =
      (answered.1, document.guarded condition, answered.2) := by
  intro answered
  rw [TableService.deleteItem, Document.deleteRequest, Document.compileTo,
    asks.compile_guarded whole]
  dsimp only [TableService.send, Memory.service, Memory.write, answer, answered]
  rcases Memory.delete (document.guarded condition).toDeleteRequest memory with
    ⟨_ | reply, next⟩ <;> rfl

end

/-- A chain without the conditions of a read fits a write. -/
theorem fits_of_isWrite
    (noKeyCondition : chain.keyCondition = none)
    (noFilter : chain.filter = none)
    {operation : Operation}
    (isWrite : operation.isWrite) :
    chain.Fits operation := by
  have noQuery : operation ≠ .query := by
    rintro rfl
    cases isWrite
  have noRead : operation.isRead = false := by
    cases operation <;> first | rfl | cases isWrite
  constructor
  · simp [noKeyCondition, noQuery]
  · simp [noFilter]
  · exact fun _ => isWrite
  · simp [noRead]

/-- A chain sends one request, which asks for what it writes. -/
theorem exists_request
    (inMemory : table.service = Memory.service)
    (noKeyCondition : chain.keyCondition = none)
    (noFilter : chain.filter = none)
    (valid : ∀ tree ∈ chain.condition, tree.isWellFormed ∧ tree.isBounded)
    (write : ItemWrite) :
    ∃ request,
      write.IsAskedBy chain table.name request ∧
        ∀ memory, write.run table chain memory = answer (memory.write request) := by
  have fits (operation : Operation) (isWrite : operation.isWrite) : chain.Fits operation :=
    fits_of_isWrite noKeyCondition noFilter isWrite
  cases write with
  | put item =>
      have isDocument :
          ∃ document,
            chain.document table.name .putItem none = .ok document ∧
              document.tableName = table.name ∧ document.item = chain.key := by
        rw [ChainState.document, ChainState.check_eq_ok_iff.mpr (fits .putItem rfl), ok_bind]
        exact ⟨_, rfl, rfl, rfl⟩
      rcases isDocument with ⟨document, isDocument, named, keyed⟩
      rcases ChainState.asks_of_isWrite isDocument rfl with ⟨asks, whole⟩
      have filled :
          { document with item := item.extend document.item }.Asks none none chain.condition :=
        ⟨asks.keyCondition, asks.filter, asks.condition, asks.names, asks.values⟩
      rw [keyed] at filled
      refine ⟨.put (Document.guarded { document with item := item.extend chain.key }
          chain.condition).toPutRequest,
        ⟨named, rfl, rfl, ⟨?_, ?_⟩, Memory.writeCondition_guarded valid _⟩, fun memory => ?_⟩
      · rintro ⟨_, ⟨⟩⟩
      · rintro ⟨⟩
      · rw [run, Table.put, isDocument, inMemory]
        dsimp only
        rw [keyed, putItem_eq filled whole]
  | delete =>
      have isDocument :
          ∃ document,
            chain.document table.name .deleteItem none = .ok document ∧
              document.tableName = table.name ∧ document.key = chain.key := by
        rw [ChainState.document, ChainState.check_eq_ok_iff.mpr (fits .deleteItem rfl), ok_bind]
        exact ⟨_, rfl, rfl, rfl⟩
      rcases isDocument with ⟨document, isDocument, named, keyed⟩
      rcases ChainState.asks_of_isWrite isDocument rfl with ⟨asks, whole⟩
      refine ⟨.delete (document.guarded chain.condition).toDeleteRequest,
        ⟨named, keyed, rfl, ?_, Memory.writeCondition_guarded valid _⟩, fun memory => ?_⟩
      · exact ⟨fun _ => rfl, fun _ => ⟨_, rfl⟩⟩
      · rw [run, Table.delete, isDocument, inMemory]
        dsimp only
        rw [deleteItem_eq asks whole]

/-! ## What a memory makes of the request -/

theorem answer_eq_ok_iff {reply : Except ServiceError WriteReply × Memory} :
    (answer reply).1 = .ok () ↔ ∃ written, reply.1 = .ok written := by
  rcases reply with ⟨error | written, next⟩
  · exact ⟨nofun, nofun⟩
  · exact ⟨fun _ => ⟨written, rfl⟩, fun _ => rfl⟩

theorem answer_eq_error_iff
    {reply : Except ServiceError WriteReply × Memory}
    {error : ChainError} :
    (answer reply).1 = .error error ↔
      ∃ cause, reply.1 = .error cause ∧ ChainError.ofService cause = error := by
  rcases reply with ⟨cause | written, next⟩
  · constructor
    · rintro ⟨⟩
      exact ⟨cause, rfl, rfl⟩
    · rintro ⟨_, ⟨⟩, rfl⟩
      rfl
  · exact ⟨nofun, nofun⟩

theorem ofService_eq_checkFailed_iff
    {cause error : ServiceError} :
    ChainError.ofService cause = .checkFailed error ↔ cause = error ∧ error.isCheckFailed := by
  rw [ChainError.ofService]
  cases checked : cause.isCheckFailed with
  | true =>
      rw [if_pos rfl]
      constructor
      · rintro ⟨⟩
        exact ⟨rfl, checked⟩
      · rintro ⟨rfl, -⟩
        rfl
  | false =>
      rw [if_neg nofun]
      constructor
      · rintro ⟨⟩
      · rintro ⟨rfl, isChecked⟩
        cases checked.symm.trans isChecked

theorem IsAskedBy.isAbout_iff
    {name : String}
    {request : WriteRequest}
    {schema : KeySchema}
    {key : PrimaryKey}
    (asked : write.IsAskedBy chain name request)
    (distinct : write = .delete → schema.HasDistinctNames) :
    request.IsAbout schema key ↔ write.IsAbout chain schema key := by
  cases write with
  | put item =>
      have noDeletion : ∀ deletion, request ≠ .delete deletion :=
        fun deletion isDelete => nomatch asked.deletes.mp ⟨deletion, isDelete⟩
      rw [IsAbout, ← show request.subject = item.extend chain.key from asked.subject]
      constructor
      · exact WriteRequest.IsAbout.hasKey
      · exact fun hasKey => ⟨hasKey, fun deletion isDelete => absurd isDelete (noDeletion deletion)⟩
  | delete =>
      rcases asked.deletes.mpr rfl with ⟨deletion, rfl⟩
      have keyed : deletion.key = chain.key := asked.subject
      have exactly : schema.exactKey chain.key = .ok key ↔ schema.IsKeyMap chain.key key :=
        KeySchema.exactKey_eq_ok_iff (distinct rfl)
      rw [IsAbout, ← exactly, ← keyed, ← Memory.exactKey_eq_ok_iff,
        Memory.orKeyError_eq_mapError, mapError_eq_ok]

theorem IsAskedBy.admits_iff
    {name : String}
    {request : WriteRequest}
    {storage : Storage}
    {key : PrimaryKey}
    {condition : Option Condition}
    (asked : write.IsAskedBy chain name request)
    (distinct : write = .delete →
      ∀ storage, memory.tables.find? name = some storage → storage.schema.HasDistinctNames) :
    memory.Admits request storage key condition ↔
      write.Addresses chain memory name storage key ∧ condition = chain.condition := by
  constructor
  · rintro ⟨found, about, reads⟩
    have sameCondition := (Memory.writeCondition_eq_ok_iff.mpr reads).symm.trans asked.condition
    rw [asked.tableName] at found
    exact ⟨⟨found, (asked.isAbout_iff fun deletes => distinct deletes _ found).mp about⟩,
      Except.ok.inj sameCondition⟩
  · rintro ⟨⟨found, about⟩, rfl⟩
    refine ⟨?_, (asked.isAbout_iff fun deletes => distinct deletes _ found).mpr about, ?_⟩
    · rw [asked.tableName]
      exact found
    · exact Memory.writeCondition_eq_ok_iff.mp asked.condition

section

variable
    {name : String}
    {request : WriteRequest}
    (asked : write.IsAskedBy chain name request)
    (distinct : write = .delete →
      ∀ storage, memory.tables.find? name = some storage → storage.schema.HasDistinctNames)

include asked distinct

theorem IsAskedBy.succeeds_iff :
    (answer (memory.write request)).1 = .ok () ↔
      ∃ storage key,
        write.Addresses chain memory name storage key ∧
          ∀ tree ∈ chain.condition, tree.holds ((storage.item? key).getD ∅) = .ok true := by
  rw [answer_eq_ok_iff, (memory.write_outcome request).granted_iff]
  simp only [asked.admits_iff distinct]
  constructor
  · rintro ⟨storage, key, _, ⟨addresses, rfl⟩, holds⟩
    exact ⟨storage, key, addresses, holds⟩
  · rintro ⟨storage, key, addresses, holds⟩
    exact ⟨storage, key, _, ⟨addresses, rfl⟩, holds⟩

theorem IsAskedBy.unmet_iff :
    (∃ error, (answer (memory.write request)).1 = .error (.checkFailed error)) ↔
      ∃ storage key,
        write.Addresses chain memory name storage key ∧
          ∃ tree ∈ chain.condition, tree.holds ((storage.item? key).getD ∅) = .ok false := by
  have unmet :
      (∃ error, (answer (memory.write request)).1 = .error (.checkFailed error)) ↔
        ∃ error, (memory.write request).1 = .error error ∧ error.isCheckFailed := by
    simp only [answer_eq_error_iff, ofService_eq_checkFailed_iff]
    constructor
    · rintro ⟨_, error, failed, rfl, checkFailed⟩
      exact ⟨error, failed, checkFailed⟩
    · rintro ⟨error, failed, checkFailed⟩
      exact ⟨error, error, failed, rfl, checkFailed⟩
  rw [unmet, (memory.write_outcome request).checkFailed_iff]
  simp only [asked.admits_iff distinct]
  constructor
  · rintro ⟨storage, key, _, ⟨addresses, rfl⟩, isFalse⟩
    exact ⟨storage, key, addresses, isFalse⟩
  · rintro ⟨storage, key, addresses, isFalse⟩
    exact ⟨storage, key, _, ⟨addresses, rfl⟩, isFalse⟩

theorem IsAskedBy.changes
    {storage : Storage}
    {key : PrimaryKey}
    (succeeded : (answer (memory.write request)).1 = .ok ())
    (addresses : write.Addresses chain memory name storage key) :
    memory.Changes (memory.write request).2 name key (write.left chain) := by
  rw [answer_eq_ok_iff] at succeeded
  rcases succeeded with ⟨reply, granted⟩
  rcases (memory.write_outcome request).changes granted with ⟨_, _, _, admits, changes⟩
  rcases admits.unique ((asked.admits_iff distinct).mpr ⟨addresses, rfl⟩) with ⟨rfl, rfl, rfl⟩
  rwa [asked.tableName, asked.left] at changes

end

end ItemWrite

/-! ## Reading what was written -/

/-- A chain asks for whole items by their keys. -/
structure ChainState.AsksForItem (chain : ChainState) : Prop where
  fits : chain.Fits .getItem
  whole : chain.projection = []

/-- A chain that asks for an item gets what its key finds. -/
theorem ChainState.AsksForItem.getOptional_eq
    {chain : ChainState}
    {table : Table Memory}
    {memory : Memory}
    {schema : KeySchema}
    {key : PrimaryKey}
    {found : Option Item}
    (asks : chain.AsksForItem)
    (inMemory : table.service = Memory.service)
    (finds : memory.Finds table.name schema key found)
    (keyed : schema.exactKey chain.key = .ok key) :
    (table.getOptional chain memory).1 = .ok found := by
  rcases finds with ⟨storage, found, rfl, rfl⟩
  have isDocument :
      ∃ document,
        chain.document table.name .getItem none = .ok document ∧
          document.isCompiled ∧ document.toGetRequest.projection = none ∧
          document.tableName = table.name ∧ document.key = chain.key ∧ document.names = ∅ := by
    rw [ChainState.document, check_eq_ok_iff.mpr asks.fits, ok_bind]
    have noProjection : chain.projectionField none = none := by
      rw [projectionField, asks.whole]
      rfl
    rw [noProjection]
    exact ⟨_, rfl, rfl, rfl, rfl, rfl, rfl⟩
  rcases isDocument with ⟨document, isDocument, compiled, whole, named, isKey, noNames⟩
  rw [Table.getOptional, isDocument, inMemory]
  dsimp only
  rw [TableService.getItem, Document.getRequest, Document.compileTo, Document.compile,
    if_pos compiled]
  rw [← named] at found
  rw [← isKey] at keyed
  have isTable : memory.tables.find? document.toGetRequest.tableName = some storage := found
  rcases Memory.exists_get_eq isTable keyed whole noNames with ⟨capacity, answered⟩
  dsimp only [TableService.send, Memory.service]
  rw [answered]
  rfl

/-- A chain gets the item that its key finds. -/
theorem Table.get_of_getOptional
    {σ : Type}
    {table : Table σ}
    {chain : ChainState}
    {state : σ}
    {item : Item}
    (found : (table.getOptional chain state).1 = .ok (some item)) :
    (table.get chain state).1 = .ok item := by
  rw [get]
  generalize table.getOptional chain state = answer at found ⊢
  rcases answer with ⟨result, next⟩
  cases found
  rfl

/-! ## Chains do what they say -/

section

variable
    {memory : Memory}
    {table : Table Memory}
    {chain : ChainState}
    (reachable : memory.Reachable)
    (inMemory : table.service = Memory.service)
    (noKeyCondition : chain.keyCondition = none)
    (noFilter : chain.filter = none)
    (valid : ∀ tree ∈ chain.condition, tree.isWellFormed ∧ tree.isBounded)

include reachable inMemory noKeyCondition noFilter valid

/-- A chain that writes an item succeeds exactly if it addresses a key of a table and its
condition holds of the item that the key finds; it fails as unmet exactly if the condition
is false.  If it succeeds, its key finds what was asked for and nothing else is changed;
whoever asks for the item by its key attributes alone then gets it, until another write is
about the key.  If it fails, for whatever reason, no table has other items than before. -/
theorem chain_writes_item
    (write : ItemWrite)
    (distinct : write = .delete →
      ∀ storage, memory.tables.find? table.name = some storage →
        storage.schema.HasDistinctNames) :
    let result := (write.run table chain memory).1
    let next := (write.run table chain memory).2
    (∀ (item : Item) (name : String),
      (item.extend chain.key).find? name = (chain.key.find? name).or (item.find? name)) ∧
    (result = .ok () ↔
      ∃ storage key,
        write.Addresses chain memory table.name storage key ∧
          ∀ tree ∈ chain.condition, tree.holds ((storage.item? key).getD ∅) = .ok true) ∧
    ((∃ error, result = .error (.checkFailed error)) ↔
      ∃ storage key,
        write.Addresses chain memory table.name storage key ∧
          ∃ tree ∈ chain.condition, tree.holds ((storage.item? key).getD ∅) = .ok false) ∧
    (result = .ok () →
      ∀ storage key, write.Addresses chain memory table.name storage key →
        memory.Changes next table.name key (write.left chain) ∧
        ∀ (later : List WriteRequest) (reader : ChainState),
          storage.schema.HasDistinctNames →
          (∀ request ∈ later, ¬request.Touches table.name storage.schema key) →
          reader.AsksForItem →
          storage.schema.IsKeyOf (write.subject chain) reader.key →
            (table.getOptional reader (next.writeAll later)).1 = .ok (write.left chain) ∧
            ∀ item ∈ write.left chain,
              (table.get reader (next.writeAll later)).1 = .ok item) ∧
    (∀ error, result = .error error →
      next.Alike memory ∧
        ∀ later, (next.writeAll later).AnswersAs (memory.writeAll later)) := by
  intro result next
  rcases write.exists_request inMemory noKeyCondition noFilter valid with ⟨request, asked, sent⟩
  have isResult : result = (ItemWrite.answer (memory.write request)).1 :=
    congrArg Prod.fst (sent memory)
  have isNext : next = (memory.write request).2 :=
    congrArg Prod.snd (sent memory)
  refine ⟨fun item name => NameMap.find?_extend item chain.key name, ?_, ?_, ?_, ?_⟩
  · rw [isResult]
    exact asked.succeeds_iff distinct
  · rw [isResult]
    exact asked.unmet_iff distinct
  · intro succeeded storage key addresses
    have changes := asked.changes distinct (isResult ▸ succeeded) addresses
    rw [← isNext] at changes
    refine ⟨changes, fun later reader distinctNames untouched asks isKeyOf => ?_⟩
    have nextReachable : next.Reachable := isNext ▸ reachable.write request
    have finds := (changes.finds addresses.found).writeAll nextReachable untouched
    have keyed := isKeyOf.exactKey_eq distinctNames addresses.about.hasKey
    have got := asks.getOptional_eq inMemory finds keyed
    refine ⟨got, fun item isLeft => Table.get_of_getOptional ?_⟩
    rw [got, Option.mem_def.mp isLeft]
  · intro error failed
    rw [isResult, ItemWrite.answer_eq_error_iff] at failed
    rcases failed with ⟨cause, refused, -⟩
    have alike := reachable.write_alike refused
    rw [isNext]
    exact ⟨alike, fun later => (alike.writeAll later).answersAs⟩

end

/-- A note whose page is set by the chain replaces the one that is there, as long as its
text is what it is thought to be. -/
theorem chain_writes_item_notes :
    let memory := notebook [noted "1" "x"]
    let table := Table.ofName Memory.service "notes"
    let chain :=
      { ChainState.start with
        key := .ofList [("page", .number "1")]
        condition := some (.compare (attributeOf "text") .equal (.value (.string "x"))) }
    let reader := { ChainState.start with key := noteKeys.copyKey (noted "1" "y") ∅ }
    let after := (ItemWrite.put (noted "7" "y")).run table chain memory
    after.1 = .ok () ∧ (table.get reader after.2).1 = .ok (noted "1" "y") := by
  intro memory table chain reader after
  have written : after.1 = .ok () := by decide +kernel
  have isTable : memory.tables.find? table.name = some (pagesOf [noted "1" "x"]) := rfl
  have merged : (noted "7" "y").extend chain.key = noted "1" "y" := by decide +kernel
  have addresses :
      (ItemWrite.put (noted "7" "y")).Addresses chain memory table.name (pagesOf [noted "1" "x"])
        ⟨.string "a", .number "1"⟩ := by
    refine ⟨isTable, ?_⟩
    rw [ItemWrite.IsAbout, merged]
    exact ⟨⟨.string "a", rfl, rfl⟩, ⟨.number "1", rfl, rfl⟩⟩
  have valid : ∀ tree ∈ chain.condition, tree.isWellFormed ∧ tree.isBounded := by
    rintro _ ⟨⟩
    exact ⟨rfl, rfl⟩
  have asks : reader.AsksForItem := ⟨⟨⟨nofun, nofun⟩, nofun, nofun, nofun⟩, rfl⟩
  have distinct : noteKeys.HasDistinctNames := by
    rintro _ ⟨⟩
    decide
  have isKeyOf :
      noteKeys.IsKeyOf ((ItemWrite.put (noted "7" "y")).subject chain) reader.key := by
    intro name
    rw [ItemWrite.subject, merged, KeySchema.find?_copyKey, NameMap.find?_empty, Option.or_none]
  have isLeft : noted "1" "y" ∈ (ItemWrite.put (noted "7" "y")).left chain :=
    congrArg some merged
  have inMemory : table.service = Memory.service := rfl
  rcases chain_writes_item (notebook_reachable [noted "1" "x"]) inMemory rfl rfl valid
      (.put (noted "7" "y")) nofun with
    ⟨-, -, -, granted, -⟩
  rcases granted written _ _ addresses with ⟨-, read⟩
  exact ⟨written, (read [] reader distinct nofun asks isKeyOf).2 _ isLeft⟩

/-- A table whose two key attributes have one name stores an item that is not found by its
key attributes, nor deleted. -/
theorem chain_writes_item_twins :
    let schema : KeySchema := ⟨⟨"id", .string⟩, some ⟨"id", .string⟩⟩
    let memory := (Memory.start.createTable "twins" schema).2
    let table := Table.ofName Memory.service "twins"
    let item := (∅ : Item).insert "id" (.string "a")
    let stored := (ItemWrite.put item).run table .start memory
    let reader := { ChainState.start with key := item }
    memory.Reachable ∧ stored.1 = .ok () ∧
      schema.IsKeyOf item reader.key ∧ reader.AsksForItem ∧
        (table.get reader stored.2).1 ≠ .ok item ∧
          (ItemWrite.delete.run table reader stored.2).1 ≠ .ok () := by
  intro schema memory table item stored reader
  have isKeyOf : schema.IsKeyOf item reader.key := by
    intro name
    by_cases isId : name = "id"
    · subst isId
      rfl
    · rw [NameMap.find?_insert, if_neg isId, NameMap.find?_empty]
      split <;> rfl
  refine ⟨.createTable .start _ _, by decide +kernel, isKeyOf,
    ⟨⟨⟨nofun, nofun⟩, nofun, nofun, nofun⟩, rfl⟩, ?_, ?_⟩
  · decide +kernel
  · decide +kernel

end ItemTable
