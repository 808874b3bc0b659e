import ItemTable.Proofs.Chain.Building
import ItemTable.Proofs.Chain.Sending
import ItemTable.Proofs.Memory.Refusals
import ItemTable.Proofs.Service.Resolving

/-!
# Chains send resolved requests

However a chain is built, all that it sends is resolved, and no memory finds fault with
the expressions, the limit or the selection of a request.  A memory that refuses one does
so because of what it holds, or because a key or a value does not fit it.
-/

namespace ItemTable

/-- A service answers a request with an error. -/
def TableService.FailsWith
    {σ : Type}
    (service : TableService σ)
    (state : σ)
    (error : ServiceError) :
    Request → Prop
  | .get request => (service.get request state).1 = .error error
  | .put request => (service.put request state).1 = .error error
  | .delete request => (service.delete request state).1 = .error error
  | .query request => (service.query request state).1 = .error error
  | .scan request => (service.scan request state).1 = .error error

/-- No memory calls a request malformed, whatever it holds. -/
def Memory.Understands (request : Request) : Prop :=
  ∀ memory error, Memory.service.FailsWith memory error request → ¬Memory.IsMalformed error

/-! ## What a memory reads -/

/-- The condition of a compiled write is read back, and nothing is left over. -/
theorem Memory.writeCondition_guarded
    {condition : Option Condition}
    (valid : ∀ tree ∈ condition, tree.isWellFormed ∧ tree.isBounded)
    (document : Document) :
    writeCondition (document.guarded condition).names (document.guarded condition).values
        (Document.text? (document.guarded condition).condition) =
      .ok condition := by
  cases condition with
  | none => rfl
  | some tree =>
      rcases valid tree rfl with ⟨wellFormed, bounded⟩
      have sound := PlaceholderTable.Opening.start.sound.meet tree.names tree.literals
      have knows := PlaceholderTable.Extends.knows
        (.refl (PlaceholderTable.meet .start tree.names tree.literals))
      rcases (Scope.HasRead.start _).condition sound knows bounded wellFormed with
        ⟨next, read, nextRead⟩
      have finished := Scope.HasRead.finish nextRead sound
      simp only [Document.guarded, Option.toList_some, List.flatMap_singleton]
      change writeCondition _ _ (some (tree.spell _)) = _
      simp only [writeCondition, readCondition, read]
      change (orInvalid _ next.finish >>= _) = _
      rw [finished]
      rfl

namespace ReadTerms

variable {terms : ReadTerms}

theorem values_eq_empty (unconditional : terms.conditions = []) :
    terms.table.values.meanings = ∅ := by
  rw [table, literals, unconditional]
  rfl

/-- The projection of a request for an item is read, and nothing is left over. -/
theorem readProjection_unconditional
    (unconditional : terms.conditions = [])
    (paths : ∀ path ∈ terms.paths, path.isRooted ∧ path.isBounded)
    (document : Document) :
    ∃ next,
      Memory.readProjection (.start terms.table.names.meanings ∅)
          (terms.write document).projectionText? = .ok (terms.shown, next) ∧
        next.finish = .ok () := by
  have read := Scope.HasRead.start terms.table
  rw [values_eq_empty unconditional] at read
  apply Memory.readProjection_paths _ paths
  rw [unconditional]
  exact read

end ReadTerms

/-! ## What a chain sends -/

namespace ChainState

variable {chain : ChainState} {select : Option Select} {request : Request}

theorem Made.valid_readTerms
    (made : chain.Made)
    (select : Option Select) :
    (chain.readTerms select).Valid := by
  refine ⟨?_, chain.paths_readTerms select⟩
  intro condition member
  have isMade : condition.Made := by
    rcases List.mem_append.mp member with isKey | isFilter
    · exact made.keyCondition condition (Option.mem_toList.mp isKey)
    · exact made.filter condition (Option.mem_toList.mp isFilter)
  exact ⟨isMade.isWellFormed, isMade.isBounded⟩

theorem Fits.conditions_readTerms
    (fits : chain.Fits .getItem)
    (select : Option Select) :
    (chain.readTerms select).conditions = [] := by
  rw [ReadTerms.conditions, readTerms, fits.keyCondition_eq_none (by decide),
    fits.filter_eq_none rfl]
  rfl

/-- All that a chain sends is resolved. -/
theorem Sends.isResolved
    (sends : chain.Sends select request)
    (made : chain.Made) :
    request.IsResolved := by
  cases sends with
  | get fits document =>
      have noKey : chain.keyCondition = none := fits.keyCondition_eq_none (by decide)
      have noFilter : chain.filter = none := fits.filter_eq_none rfl
      refine ReadTerms.isResolved (made.valid_readTerms select).bounded rfl ?_ ?_ ?_ rfl rfl
      · exact (ReadTerms.values_eq_empty (fits.conditions_readTerms select)).symm
      · change none = Document.text? (chain.keyCondition.map _)
        rw [noKey]
        rfl
      · change none = Document.text? (chain.filter.map _)
        rw [noFilter]
        rfl
  | put document =>
      exact Document.isResolved_guarded (fun tree isTree => (made.condition tree isTree).isBounded)
        rfl rfl rfl rfl rfl rfl
  | delete document =>
      exact Document.isResolved_guarded (fun tree isTree => (made.condition tree isTree).isBounded)
        rfl rfl rfl rfl rfl rfl
  | @page kind accepted name key =>
      have bounded := (made.valid_readTerms select).bounded
      have keyed := (not_refuses_iff.mp accepted).1.isSome_keyCondition
      cases kind with
      | query => exact ReadTerms.isResolved bounded rfl rfl rfl rfl rfl rfl
      | scan =>
          have noKey := Option.not_isSome_iff_eq_none.mp (Bool.eq_false_iff.mp keyed)
          refine ReadTerms.isResolved bounded rfl rfl ?_ rfl rfl rfl
          change none = Document.text? (chain.keyCondition.map _)
          rw [noKey]
          rfl

/-- A memory refuses what a chain sends only because of what it holds. -/
theorem Sends.isOfData
    {memory : Memory}
    {error : ServiceError}
    (sends : chain.Sends select request)
    (made : chain.Made)
    (counts : select = none ∨ select = some .count)
    (failed : Memory.service.FailsWith memory error request) :
    Memory.IsOfData error := by
  have isWritten (tree : Condition) (isTree : tree ∈ chain.condition) :
      tree.isWellFormed ∧ tree.isBounded :=
    ⟨(made.condition tree isTree).isWellFormed, (made.condition tree isTree).isBounded⟩
  cases sends with
  | get fits document =>
      rcases ReadTerms.readProjection_unconditional (fits.conditions_readTerms select)
          (chain.paths_readTerms select) document with
        ⟨next, read, finished⟩
      exact Memory.isOfData_of_get read finished failed
  | put document =>
      exact Memory.isOfData_of_put (Memory.writeCondition_guarded isWritten document)
        (fun tree isTree => (isWritten tree isTree).1) failed
  | delete document =>
      exact Memory.isOfData_of_delete (Memory.writeCondition_guarded isWritten document)
        (fun tree isTree => (isWritten tree isTree).1) failed
  | @page kind accepted name key =>
      have bounded (tree : Condition) (isFilter : tree ∈ chain.filter) : tree.isBounded :=
        (made.filter tree isFilter).isBounded
      have answer := congrArg Prod.fst (page_eq accepted bounded counts name key memory)
      have refused :
          (Memory.service.page ((chain.pageRequest name kind select).withStart key) memory).1 =
            .error error := by
        cases kind <;> exact failed
      exact Memory.isOfData_of_answer (made.valid_readTerms select) (answer.symm.trans refused)

end ChainState

/-! ## Chains however they are built -/

/-- A chain is built by any calls, with conditions that were made.  If the document of an
operation can be compiled, it makes a request that explains exactly the placeholders that
its expressions mention, each with a meaning of its own; if the request is for items or
for their number, no memory calls it malformed, whatever it holds.  Whichever call runs
the chain, it sends such requests only. -/
theorem built_chain_sends_resolved
    {σ : Type}
    {calls : List BuilderCall}
    (adds : ∀ call ∈ calls, ∀ condition ∈ call.added?, condition.Made)
    (table : Table σ) :
    let chain := table.build calls
    (∀ operation select document compiled,
      chain.document table.name operation select = .ok document →
      document.compile = .ok compiled →
        ∃ request,
          compiled.request operation = .ok request ∧
            request.IsResolved ∧
            (select = none ∨ select = some .count → Memory.Understands request)) ∧
      ∀ terminal state,
        ∀ request ∈ (table.recorded.perform chain (state, []) terminal).2.2.2,
          request.IsResolved ∧ Memory.Understands request := by
  intro chain
  have made : chain.Made := ChainState.made_build adds table
  have understands
      {select : Option Select}
      {request : Request}
      (sends : chain.Sends select request)
      (counts : select = none ∨ select = some .count) :
      Memory.Understands request :=
    fun _ _ failed => (sends.isOfData made counts failed).not_isMalformed
  constructor
  · intro operation select document compiled isDocument done
    rcases ChainState.exists_sends_of_compile isDocument done with ⟨request, requested, sends⟩
    exact ⟨request, requested, sends.isResolved made, understands sends⟩
  · intro terminal state request sent
    have sends := ChainState.sends_of_perform terminal request sent
    refine ⟨sends.isResolved made, understands sends ?_⟩
    cases terminal <;> first | exact .inl rfl | exact .inr rfl

/-- A query with a key condition, a filter and a projection makes a resolved request. -/
theorem built_chain_sends_resolved_notes :
    let table := Table.ofName Memory.service "notes"
    let calls : List BuilderCall :=
      [.keyCondition (.ofComparison (.path (.parse "author")) .equal (.string "a")),
        .filter (.ofPredicate .contains (.parse "tags[0].text") (some (.string "a"))),
        .projection ["author, text"]]
    (∀ call ∈ calls, ∀ condition ∈ call.added?, condition.Made) ∧
      ∃ document compiled request,
        (table.build calls).document table.name .query none = .ok document ∧
          document.compile = .ok compiled ∧
          compiled.request .query = .ok request ∧
          request.IsResolved ∧ Memory.Understands request := by
  intro table calls
  have adds : ∀ call ∈ calls, ∀ condition ∈ call.added?, condition.Made := by
    refine List.forall_mem_cons.mpr ⟨?_, List.forall_mem_cons.mpr ⟨?_, ?_⟩⟩
    · rintro _ ⟨⟩
      exact .comparison (.path "author") .equal (.string "a")
    · rintro _ ⟨⟩
      exact .contains "tags[0].text" (.string "a")
    · exact List.forall_mem_singleton.mpr nofun
  have accepted : ¬(table.build calls).Refuses ReadKind.query.operation := by
    rw [ChainState.not_refuses_iff]
    refine ⟨⟨⟨fun _ => rfl, fun _ => rfl⟩, fun _ => rfl, nofun, fun _ => nofun⟩, ?_⟩
    rintro _ ⟨⟩
    exact .compare nofun (.ofItem "author") (.literal (.string "a"))
  rcases ChainState.makes_pageRequest accepted table.name none with ⟨isDocument, makes⟩
  generalize (table.build calls).pageRequest table.name .query none = first at makes
  cases makes with
  | query done made =>
      rcases (built_chain_sends_resolved adds table).1 .query none _ _ isDocument done with
        ⟨request, requested, resolved, understood⟩
      exact ⟨adds, _, _, request, isDocument, done, requested, resolved, understood (.inl rfl)⟩

end ItemTable
